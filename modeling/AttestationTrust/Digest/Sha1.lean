import AttestationTrust.Digest.Sha2
/-!
# SHA-1

Eighty rounds over a state of five words.  A round takes its mixing function and its constant from the quarter
it lies in.
-/
namespace AttestationTrust
namespace Digest
namespace Sha1

structure State where
  a : UInt32
  b : UInt32
  c : UInt32
  d : UInt32
  e : UInt32

def rotate (n : Nat) (x : UInt32) : UInt32 := (x <<< UInt32.ofNat n) ||| (x >>> UInt32.ofNat (32 - n))

def schedule : (more : Nat) → (window : List UInt32) → List UInt32
  | 0, window => window
  | more + 1, window =>
    match window with
    | [w0, w1, w2, w3, w4, w5, w6, w7, w8, w9, w10, w11, w12, w13, w14, w15] =>
      let next := rotate 1 (w13 ^^^ w8 ^^^ w2 ^^^ w0)
      w0 :: schedule more [w1, w2, w3, w4, w5, w6, w7, w8, w9, w10, w11, w12, w13, w14, w15, next]
    | _ => window

def mixAndConstant (quarter : Nat) (b c d : UInt32) : UInt32 × UInt32 :=
  match quarter with
  | 0 => ((b &&& c) ||| (~~~b &&& d), 0x5a827999)
  | 1 => (b ^^^ c ^^^ d, 0x6ed9eba1)
  | 2 => ((b &&& c) ||| (b &&& d) ||| (c &&& d), 0x8f1bbcdc)
  | _ => (b ^^^ c ^^^ d, 0xca62c1d6)

def round (st : State) (step : UInt32 × Nat) : State :=
  let (f, k) := mixAndConstant (step.2 / 20) st.b st.c st.d
  ⟨rotate 5 st.a + f + st.e + k + step.1, st.a, rotate 30 st.b, st.c, st.d⟩

def block (st : State) (bs : Bytes) : State :=
  let words := (chunks 4 bs).map fun w => UInt32.ofNat (Bytes.toNat w)
  let last := ((schedule 64 words).zip (List.range 80)).foldl round st
  ⟨st.a + last.a, st.b + last.b, st.c + last.c, st.d + last.d, st.e + last.e⟩

end Sha1

def sha1 (bs : Bytes) : Bytes :=
  let st := (chunks 64 (pad 64 8 bs)).foldl Sha1.block
    ⟨0x67452301, 0xefcdab89, 0x98badcfe, 0x10325476, 0xc3d2e1f0⟩
  [st.a, st.b, st.c, st.d, st.e].flatMap fun w => Bytes.ofNat 4 w.toNat

end Digest
end AttestationTrust
