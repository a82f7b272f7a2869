import AttestationTrust.Digest.Sha1
/-!
# MD5

Sixty-four rounds over a state of four words, the octets of every word from the least significant on.  A round
takes its mixing function, its turns and the word that it adds from the quarter it lies in.
-/
namespace AttestationTrust
namespace Digest
namespace Md5

structure State where
  a : UInt32
  b : UInt32
  c : UInt32
  d : UInt32

/-- The whole parts of the sines of the first numbers, as fractions of a word. -/
def constants : List UInt32 := [
  0xd76aa478, 0xe8c7b756, 0x242070db, 0xc1bdceee, 0xf57c0faf, 0x4787c62a, 0xa8304613, 0xfd469501,
  0x698098d8, 0x8b44f7af, 0xffff5bb1, 0x895cd7be, 0x6b901122, 0xfd987193, 0xa679438e, 0x49b40821,
  0xf61e2562, 0xc040b340, 0x265e5a51, 0xe9b6c7aa, 0xd62f105d, 0x02441453, 0xd8a1e681, 0xe7d3fbc8,
  0x21e1cde6, 0xc33707d6, 0xf4d50d87, 0x455a14ed, 0xa9e3e905, 0xfcefa3f8, 0x676f02d9, 0x8d2a4c8a,
  0xfffa3942, 0x8771f681, 0x6d9d6122, 0xfde5380c, 0xa4beea44, 0x4bdecfa9, 0xf6bb4b60, 0xbebfbc70,
  0x289b7ec6, 0xeaa127fa, 0xd4ef3085, 0x04881d05, 0xd9d4d039, 0xe6db99e5, 0x1fa27cf8, 0xc4ac5665,
  0xf4292244, 0x432aff97, 0xab9423a7, 0xfc93a039, 0x655b59c3, 0x8f0ccc92, 0xffeff47d, 0x85845dd1,
  0x6fa87e4f, 0xfe2ce6e0, 0xa3014314, 0x4e0811a1, 0xf7537e82, 0xbd3af235, 0x2ad7d2bb, 0xeb86d391]

def turns (quarter place : Nat) : Nat :=
  match quarter with
  | 0 => [7, 12, 17, 22].getD place 0
  | 1 => [5, 9, 14, 20].getD place 0
  | 2 => [4, 11, 16, 23].getD place 0
  | _ => [6, 10, 15, 21].getD place 0

/-- The mixing function of a round and the place of the word it adds. -/
def mixAndPlace (quarter step : Nat) (b c d : UInt32) : UInt32 × Nat :=
  match quarter with
  | 0 => ((b &&& c) ||| (~~~b &&& d), step)
  | 1 => ((d &&& b) ||| (~~~d &&& c), 5 * step + 1)
  | 2 => (b ^^^ c ^^^ d, 3 * step + 5)
  | _ => (c ^^^ (b ||| ~~~d), 7 * step)

def round (words : List UInt32) (st : State) (kn : UInt32 × Nat) : State :=
  let quarter := kn.2 / 16
  let (f, place) := mixAndPlace quarter kn.2 st.b st.c st.d
  let sum := st.a + f + kn.1 + words.getD (place % 16) 0
  ⟨st.d, st.b + Sha1.rotate (turns quarter (kn.2 % 4)) sum, st.b, st.c⟩

def block (st : State) (bs : Bytes) : State :=
  let words := (chunks 4 bs).map fun w => UInt32.ofNat (Bytes.toNat w.reverse)
  let last := (constants.zip (List.range 64)).foldl (round words) st
  ⟨st.a + last.a, st.b + last.b, st.c + last.c, st.d + last.d⟩

/-- The padded message, whose last eight octets stand in the other order. -/
def padded (bs : Bytes) : Bytes :=
  let p := pad 64 8 bs
  p.take (p.length - 8) ++ (p.drop (p.length - 8)).reverse

end Md5

def md5 (bs : Bytes) : Bytes :=
  let st := (chunks 64 (Md5.padded bs)).foldl Md5.block ⟨0x67452301, 0xefcdab89, 0x98badcfe, 0x10325476⟩
  [st.a, st.b, st.c, st.d].flatMap fun w => (Bytes.ofNat 4 w.toNat).reverse

end Digest
end AttestationTrust
