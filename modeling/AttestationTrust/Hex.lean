import AttestationTrust.Bytes
/-!
# Hexadecimal text

Two digits an octet, written in lower case.  The reader takes either case and lets white space stand between
two pairs, never inside one (`Hex.decode`).  `decode_encode`: what is written reads back.
-/
namespace AttestationTrust
namespace Hex

def digitOf (n : Nat) : Char :=
  if n < 10 then Char.ofNat (48 + n) else Char.ofNat (87 + n)

def valueOf (c : Char) : Option Nat :=
  if '0' ≤ c ∧ c ≤ '9' then some (c.toNat - 48)
  else if 'a' ≤ c ∧ c ≤ 'f' then some (c.toNat - 87)
  else if 'A' ≤ c ∧ c ≤ 'F' then some (c.toNat - 55)
  else none

def encodeByte (b : UInt8) : List Char := [digitOf (b.toNat / 16), digitOf (b.toNat % 16)]

def encode (bs : Bytes) : List Char := bs.flatMap encodeByte

/-- The lower-case digits of a byte string. -/
def text (bs : Bytes) : String := String.ofList (encode bs)

/-- Only ASCII white space may part two pairs. -/
def isGap (c : Char) : Bool := c == ' ' || (9 ≤ c.toNat && c.toNat ≤ 13)

def decode : List Char → Option Bytes
  | [] => some []
  | c :: rest =>
    if isGap c then decode rest
    else match rest with
      | [] => none
      | d :: rest' =>
        match valueOf c, valueOf d with
        | some hi, some lo => (decode rest').map (UInt8.ofNat (hi * 16 + lo) :: ·)
        | _, _ => none

/-- The least number of digits, as a serial number is written. -/
def ofNat (n : Nat) : String := String.ofList (Nat.toDigits 16 n)

theorem valueOf_digitOf : ∀ n < 16, valueOf (digitOf n) = some n := by decide

theorem isGap_digitOf : ∀ n < 16, isGap (digitOf n) = false := by decide

theorem decode_encodeByte (b : UInt8) (rest : List Char) :
    decode (encodeByte b ++ rest) = (decode rest).map (b :: ·) := by
  have h1 : b.toNat / 16 < 16 := by have := b.toNat_lt; omega
  have h2 : b.toNat % 16 < 16 := by omega
  have h3 : b.toNat / 16 * 16 + b.toNat % 16 = b.toNat := by omega
  simp only [encodeByte, List.cons_append, List.nil_append]
  rw [decode, isGap_digitOf _ h1]
  simp [valueOf_digitOf _ h1, valueOf_digitOf _ h2, h3]

theorem decode_encode (bs : Bytes) : decode (encode bs) = some bs := by
  induction bs with
  | nil => rfl
  | cons b bs ih => rw [encode, List.flatMap_cons, decode_encodeByte, ← encode, ih]; rfl

end Hex
end AttestationTrust
