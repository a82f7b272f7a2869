import AttestationTrust.Bytes
/-!
# SHA-2

The four digests SHA-224, SHA-256, SHA-384 and SHA-512 follow one scheme over words of 32 or 64 bits
(`Sha2.Scheme`): the message is padded to whole blocks, each block is stretched to as many words as there are
round constants, and every round mixes one word into a state of eight.
-/
namespace AttestationTrust
namespace Digest

/-- The message, a set bit, zeros up to a whole block, and the length of the message in bits. -/
def pad (blockLength lengthWidth : Nat) (bs : Bytes) : Bytes :=
  let used := bs.length + 1 + lengthWidth
  let zeros := (blockLength - used % blockLength) % blockLength
  bs ++ 0x80 :: (List.replicate zeros 0 ++ Bytes.ofNat lengthWidth (bs.length * 8))

def chunksFrom (n : Nat) : (count : Nat) → Bytes → List Bytes
  | 0, _ => []
  | count + 1, bs => bs.take n :: chunksFrom n count (bs.drop n)

/-- Pieces of `n` octets; what is left over at the end is dropped. -/
def chunks (n : Nat) (bs : Bytes) : List Bytes := chunksFrom n (bs.length / n) bs

namespace Sha2

/-- Three rotations of a word, or two rotations and a shift. -/
abbrev Turns := Nat × Nat × Nat

structure Scheme (W : Type) where
  wordLength : Nat
  ofNat : Nat → W
  toNat : W → Nat
  add : W → W → W
  xor : W → W → W
  and : W → W → W
  complement : W → W
  rotate : Nat → W → W
  shift : Nat → W → W
  constants : List W
  stretch : Turns × Turns
  mix : Turns × Turns

variable {W : Type}

structure State (W : Type) where
  a : W
  b : W
  c : W
  d : W
  e : W
  f : W
  g : W
  h : W

namespace Scheme

def rotations (s : Scheme W) (t : Turns) (x : W) : W :=
  s.xor (s.xor (s.rotate t.1 x) (s.rotate t.2.1 x)) (s.rotate t.2.2 x)

def rotationsAndShift (s : Scheme W) (t : Turns) (x : W) : W :=
  s.xor (s.xor (s.rotate t.1 x) (s.rotate t.2.1 x)) (s.shift t.2.2 x)

/-- The words of a block and as many more as are asked for, each from four of the sixteen before it. -/
def schedule (s : Scheme W) : (more : Nat) → (window : List W) → List W
  | 0, window => window
  | more + 1, window =>
    match window with
    | [w0, w1, w2, w3, w4, w5, w6, w7, w8, w9, w10, w11, w12, w13, w14, w15] =>
      let next := s.add (s.add (s.rotationsAndShift s.stretch.2 w14) w9)
        (s.add (s.rotationsAndShift s.stretch.1 w1) w0)
      w0 :: schedule s more [w1, w2, w3, w4, w5, w6, w7, w8, w9, w10, w11, w12, w13, w14, w15, next]
    | _ => window

def round (s : Scheme W) (st : State W) (kw : W × W) : State W :=
  let choice := s.xor (s.and st.e st.f) (s.and (s.complement st.e) st.g)
  let majority := s.xor (s.xor (s.and st.a st.b) (s.and st.a st.c)) (s.and st.b st.c)
  let t1 := s.add (s.add (s.add st.h (s.rotations s.mix.2 st.e)) (s.add choice kw.1)) kw.2
  let t2 := s.add (s.rotations s.mix.1 st.a) majority
  ⟨s.add t1 t2, st.a, st.b, st.c, s.add st.d t1, st.e, st.f, st.g⟩

def addStates (s : Scheme W) (x y : State W) : State W :=
  ⟨s.add x.a y.a, s.add x.b y.b, s.add x.c y.c, s.add x.d y.d,
    s.add x.e y.e, s.add x.f y.f, s.add x.g y.g, s.add x.h y.h⟩

def block (s : Scheme W) (st : State W) (bs : Bytes) : State W :=
  let words := (chunks s.wordLength bs).map fun w => s.ofNat (Bytes.toNat w)
  s.addStates st ((s.constants.zip (s.schedule (s.constants.length - 16) words)).foldl s.round st)

/-- The first octets of the final state. -/
def digest (s : Scheme W) (start : State W) (length : Nat) (bs : Bytes) : Bytes :=
  let st := (chunks (16 * s.wordLength) (pad (16 * s.wordLength) (2 * s.wordLength) bs)).foldl s.block start
  ([st.a, st.b, st.c, st.d, st.e, st.f, st.g, st.h].flatMap fun w => Bytes.ofNat s.wordLength (s.toNat w)).take
    length

end Scheme

/-- The first bits of the fractions of the cube roots of the first primes. -/
def constants32 : List UInt32 := [
  0x428a2f98, 0x71374491, 0xb5c0fbcf, 0xe9b5dba5, 0x3956c25b, 0x59f111f1, 0x923f82a4, 0xab1c5ed5,
  0xd807aa98, 0x12835b01, 0x243185be, 0x550c7dc3, 0x72be5d74, 0x80deb1fe, 0x9bdc06a7, 0xc19bf174,
  0xe49b69c1, 0xefbe4786, 0x0fc19dc6, 0x240ca1cc, 0x2de92c6f, 0x4a7484aa, 0x5cb0a9dc, 0x76f988da,
  0x983e5152, 0xa831c66d, 0xb00327c8, 0xbf597fc7, 0xc6e00bf3, 0xd5a79147, 0x06ca6351, 0x14292967,
  0x27b70a85, 0x2e1b2138, 0x4d2c6dfc, 0x53380d13, 0x650a7354, 0x766a0abb, 0x81c2c92e, 0x92722c85,
  0xa2bfe8a1, 0xa81a664b, 0xc24b8b70, 0xc76c51a3, 0xd192e819, 0xd6990624, 0xf40e3585, 0x106aa070,
  0x19a4c116, 0x1e376c08, 0x2748774c, 0x34b0bcb5, 0x391c0cb3, 0x4ed8aa4a, 0x5b9cca4f, 0x682e6ff3,
  0x748f82ee, 0x78a5636f, 0x84c87814, 0x8cc70208, 0x90befffa, 0xa4506ceb, 0xbef9a3f7, 0xc67178f2]

def constants64 : List UInt64 := [
  0x428a2f98d728ae22, 0x7137449123ef65cd, 0xb5c0fbcfec4d3b2f, 0xe9b5dba58189dbbc, 0x3956c25bf348b538,
  0x59f111f1b605d019, 0x923f82a4af194f9b, 0xab1c5ed5da6d8118, 0xd807aa98a3030242, 0x12835b0145706fbe,
  0x243185be4ee4b28c, 0x550c7dc3d5ffb4e2, 0x72be5d74f27b896f, 0x80deb1fe3b1696b1, 0x9bdc06a725c71235,
  0xc19bf174cf692694, 0xe49b69c19ef14ad2, 0xefbe4786384f25e3, 0x0fc19dc68b8cd5b5, 0x240ca1cc77ac9c65,
  0x2de92c6f592b0275, 0x4a7484aa6ea6e483, 0x5cb0a9dcbd41fbd4, 0x76f988da831153b5, 0x983e5152ee66dfab,
  0xa831c66d2db43210, 0xb00327c898fb213f, 0xbf597fc7beef0ee4, 0xc6e00bf33da88fc2, 0xd5a79147930aa725,
  0x06ca6351e003826f, 0x142929670a0e6e70, 0x27b70a8546d22ffc, 0x2e1b21385c26c926, 0x4d2c6dfc5ac42aed,
  0x53380d139d95b3df, 0x650a73548baf63de, 0x766a0abb3c77b2a8, 0x81c2c92e47edaee6, 0x92722c851482353b,
  0xa2bfe8a14cf10364, 0xa81a664bbc423001, 0xc24b8b70d0f89791, 0xc76c51a30654be30, 0xd192e819d6ef5218,
  0xd69906245565a910, 0xf40e35855771202a, 0x106aa07032bbd1b8, 0x19a4c116b8d2d0c8, 0x1e376c085141ab53,
  0x2748774cdf8eeb99, 0x34b0bcb5e19b48a8, 0x391c0cb3c5c95a63, 0x4ed8aa4ae3418acb, 0x5b9cca4f7763e373,
  0x682e6ff3d6b2b8a3, 0x748f82ee5defb2fc, 0x78a5636f43172f60, 0x84c87814a1f0ab72, 0x8cc702081a6439ec,
  0x90befffa23631e28, 0xa4506cebde82bde9, 0xbef9a3f7b2c67915, 0xc67178f2e372532b, 0xca273eceea26619c,
  0xd186b8c721c0c207, 0xeada7dd6cde0eb1e, 0xf57d4f7fee6ed178, 0x06f067aa72176fba, 0x0a637dc5a2c898a6,
  0x113f9804bef90dae, 0x1b710b35131c471b, 0x28db77f523047d84, 0x32caab7b40c72493, 0x3c9ebe0a15c9bebc,
  0x431d67c49c100d4c, 0x4cc5d4becb3e42b6, 0x597f299cfc657e2a, 0x5fcb6fab3ad6faec, 0x6c44198c4a475817]

def words32 : Scheme UInt32 where
  wordLength := 4
  ofNat := UInt32.ofNat
  toNat := UInt32.toNat
  add x y := x + y
  xor x y := x ^^^ y
  and x y := x &&& y
  complement x := ~~~x
  rotate n x := (x >>> UInt32.ofNat n) ||| (x <<< UInt32.ofNat (32 - n))
  shift n x := x >>> UInt32.ofNat n
  constants := constants32
  stretch := ((7, 18, 3), (17, 19, 10))
  mix := ((2, 13, 22), (6, 11, 25))

def words64 : Scheme UInt64 where
  wordLength := 8
  ofNat := UInt64.ofNat
  toNat := UInt64.toNat
  add x y := x + y
  xor x y := x ^^^ y
  and x y := x &&& y
  complement x := ~~~x
  rotate n x := (x >>> UInt64.ofNat n) ||| (x <<< UInt64.ofNat (64 - n))
  shift n x := x >>> UInt64.ofNat n
  constants := constants64
  stretch := ((1, 8, 7), (19, 61, 6))
  mix := ((28, 34, 39), (14, 18, 41))

end Sha2

open Sha2

def sha224 (bs : Bytes) : Bytes :=
  words32.digest ⟨0xc1059ed8, 0x367cd507, 0x3070dd17, 0xf70e5939,
    0xffc00b31, 0x68581511, 0x64f98fa7, 0xbefa4fa4⟩ 28 bs

def sha256 (bs : Bytes) : Bytes :=
  words32.digest ⟨0x6a09e667, 0xbb67ae85, 0x3c6ef372, 0xa54ff53a,
    0x510e527f, 0x9b05688c, 0x1f83d9ab, 0x5be0cd19⟩ 32 bs

def sha384 (bs : Bytes) : Bytes :=
  words64.digest ⟨0xcbbb9d5dc1059ed8, 0x629a292a367cd507, 0x9159015a3070dd17, 0x152fecd8f70e5939,
    0x67332667ffc00b31, 0x8eb44a8768581511, 0xdb0c2e0d64f98fa7, 0x47b5481dbefa4fa4⟩ 48 bs

def sha512 (bs : Bytes) : Bytes :=
  words64.digest ⟨0x6a09e667f3bcc908, 0xbb67ae8584caa73b, 0x3c6ef372fe94f82b, 0xa54ff53a5f1d36f1,
    0x510e527fade682d1, 0x9b05688c2b3e6c1f, 0x1f83d9abfb41bd6b, 0x5be0cd19137e2179⟩ 64 bs

end Digest
end AttestationTrust
