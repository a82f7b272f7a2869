import AttestationTrust.Digest.Sha2
/-!
# SHA-3

A sponge over twenty-five words of 64 bits in five rows of five.  The message, with a mark behind it, is padded
to whole blocks; a block is mixed into the first words, and twenty-four rounds follow it.  What is given out are
the first octets of the state that is left: a digest is shorter than a block.
-/
namespace AttestationTrust
namespace Digest
namespace Sha3

/-- The words of the rows, one row after the other. -/
abbrev State := List UInt64

def word (s : State) (x y : Nat) : UInt64 := s.getD (x % 5 + 5 * (y % 5)) 0

def tabulate (f : Nat → Nat → UInt64) : State := (List.range 25).map fun i => f (i % 5) (i / 5)

def rotate (n : Nat) (w : UInt64) : UInt64 :=
  if n = 0 then w else (w <<< UInt64.ofNat n) ||| (w >>> UInt64.ofNat (64 - n))

def turns : List Nat := [
  0, 1, 62, 28, 27, 36, 44, 6, 55, 20, 3, 10, 43, 25, 39, 41, 45, 15, 21, 8, 18, 2, 61, 56, 14]

def constants : List UInt64 := [
  0x0000000000000001, 0x0000000000008082, 0x800000000000808a, 0x8000000080008000, 0x000000000000808b,
  0x0000000080000001, 0x8000000080008081, 0x8000000000008009, 0x000000000000008a, 0x0000000000000088,
  0x0000000080008009, 0x000000008000000a, 0x000000008000808b, 0x800000000000008b, 0x8000000000008089,
  0x8000000000008003, 0x8000000000008002, 0x8000000000000080, 0x000000000000800a, 0x800000008000000a,
  0x8000000080008081, 0x8000000000008080, 0x0000000080000001, 0x8000000080008008]

/-- Every word with the parities of the two columns beside its own. -/
def mixColumns (s : State) : State :=
  let parities := (List.range 5).map fun x => (List.range 5).foldl (fun w y => w ^^^ word s x y) 0
  let parity := fun (x : Nat) => parities.getD (x % 5) 0
  tabulate fun x y => word s x y ^^^ parity (x + 4) ^^^ rotate 1 (parity (x + 1))

/-- Every word turned and moved to another place. -/
def move (s : State) : State :=
  tabulate fun x y =>
    let column := (x + 3 * y) % 5
    rotate (turns.getD (column + 5 * x) 0) (word s column x)

def mixRows (s : State) : State :=
  tabulate fun x y => word s x y ^^^ (~~~(word s (x + 1) y) &&& word s (x + 2) y)

def round (s : State) (constant : UInt64) : State :=
  match mixRows (move (mixColumns s)) with
  | [] => []
  | w :: ws => (w ^^^ constant) :: ws

def absorb (s : State) (block : Bytes) : State :=
  let words := (chunks 8 block).map fun w => UInt64.ofNat (Bytes.toNat w.reverse)
  let mixed := (s.zip (words ++ List.replicate (25 - words.length) 0)).map fun (a, b) => a ^^^ b
  constants.foldl round mixed

/-- The message and its mark, zeros up to a whole block, and the highest bit of the last octet. -/
def padded (rate : Nat) (mark : UInt8) (bs : Bytes) : Bytes :=
  let zeros := rate - 1 - bs.length % rate
  if zeros = 0 then bs ++ [mark + 0x80]
  else bs ++ mark :: (List.replicate (zeros - 1) 0 ++ [0x80])

/-- As many octets as are asked for, no more than a block of `rate` octets has. -/
def sponge (rate : Nat) (mark : UInt8) (length : Nat) (bs : Bytes) : Bytes :=
  let s := (chunks rate (padded rate mark bs)).foldl absorb (List.replicate 25 0)
  (s.flatMap fun w => (Bytes.ofNat 8 w.toNat).reverse).take length

end Sha3

open Sha3

/-- A digest leaves two octets out of a block for every octet of its own. -/
def sha3 (length : Nat) (bs : Bytes) : Bytes := sponge (200 - 2 * length) 0x06 length bs

/-- The output of any length up to a block. -/
def shake256 (length : Nat) (bs : Bytes) : Bytes := sponge 136 0x1F length bs

end Digest
end AttestationTrust
