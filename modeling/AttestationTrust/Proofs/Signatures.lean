import AttestationTrust.Proofs.Verdict
/-!
# What a link of a chain shows

A link of an accepted chain is a signature that belongs to the issuer's key: a number whose power is the padded digest
(`Rsa.Key.Signs`), or a pair of numbers whose point has the first for its coordinate (`Ecdsa.Key.Signs`), over the
octets that the certificate signs and by the hash that it names.  Only these two kinds of key sign certificates; with a
key of another kind a link is broken (`Link.between_eq_broken_iff`).  A link that cannot be checked is one whose issuer
has a key of no known kind, or whose certificate is signed by an algorithm that is not known or has no hash
(`Link.between_eq_failed_iff`).
-/
namespace AttestationTrust

open X509 (Certificate Fault PublicKey SignatureAlgorithm SaltedParameters)

namespace Rsa

/-- A signature of a message with the fixed padding: its power by the public exponent is the padded digest. -/
structure Key.Signs (k : Key) (h : Hash) (message signature : Bytes) : Prop where
  usable : k.isUsable = true
  width : signature.length = k.width
  below : Bytes.toNat signature < k.modulus
  opens : ∃ padded, paddedDigest h k.width message = some padded ∧
    Nat.pow (Bytes.toNat signature) k.exponent % k.modulus = Bytes.toNat padded

theorem Key.opened_eq_some_iff {k : Key} {signature : Bytes} {n : Nat} : k.opened signature = some n ↔
    (k.isUsable = true ∧ signature.length ≤ k.width ∧ Bytes.toNat signature < k.modulus) ∧
      Nat.pow (Bytes.toNat signature) k.exponent % k.modulus = n := by
  unfold opened
  rw [← Modular.pow_eq]
  dsimp only
  split
  · rename_i h
    simp [h]
  · rename_i h
    simp [h]

theorem verify_eq_true_iff {k : Key} {h : Hash} {message signature : Bytes} :
    verify k h message signature = true ↔ k.Signs h message signature := by
  unfold verify
  rw [Bool.and_eq_true, beq_iff_eq]
  constructor
  · rintro ⟨hwidth, hv⟩
    split at hv
    · rename_i n padded hn hp
      obtain ⟨⟨husable, -, hbelow⟩, hpow⟩ := Key.opened_eq_some_iff.1 hn
      exact ⟨husable, hwidth, hbelow, padded, hp, hpow.trans (beq_iff_eq.1 hv)⟩
    · cases hv
  · rintro ⟨husable, hwidth, hbelow, padded, hp, hpow⟩
    have hn : k.opened signature = some (Bytes.toNat padded) :=
      Key.opened_eq_some_iff.2 ⟨⟨husable, hwidth.le, hbelow⟩, hpow⟩
    rw [hn, hp]
    exact ⟨hwidth, beq_self_eq_true _⟩

end Rsa

namespace Ecdsa

/-- The point of a pair of numbers: a multiple of the base point and one of the key's point, added. -/
def Key.pointOf (k : Key) (digest : Bytes) (r s : Nat) : Point :=
  let inverse := Modular.inverse k.curve.order s
  add k.curve
    (multiply k.curve (truncated k.curve digest * inverse % k.curve.order) ⟨k.curve.baseX, k.curve.baseY, 1⟩)
    (multiply k.curve (r * inverse % k.curve.order) ⟨k.x, k.y, 1⟩)

/-- The first coordinate of a point. -/
def Curve.abscissa (c : Curve) (q : Point) : Nat :=
  let inverse := Modular.inverse c.prime q.z
  q.x * (inverse * inverse % c.prime) % c.prime

/-- A signature of a message: the point of its two numbers has the first of them for its coordinate. -/
def Key.Signs (k : Key) (h : Hash) (message signature : Bytes) : Prop :=
  ∃ r s, signatureOf signature = some (r, s) ∧ (0 < r ∧ r < k.curve.order) ∧ (0 < s ∧ s < k.curve.order) ∧
    (k.pointOf (h.digest message) r s).z ≠ 0 ∧
    k.curve.abscissa (k.pointOf (h.digest message) r s) % k.curve.order = r

theorem verify_eq_true_iff {k : Key} {h : Hash} {message signature : Bytes} :
    verify k h message signature = true ↔ k.Signs h message signature := by
  unfold verify Key.Signs
  cases hrs : signatureOf signature with
  | none => simp
  | some pair =>
    obtain ⟨r, s⟩ := pair
    simp only [Option.some.injEq, Prod.mk.injEq]
    constructor
    · intro hv
      split at hv
      · cases hv
      · rename_i hrange
        split at hv
        · cases hv
        · rename_i hz
          exact ⟨r, s, ⟨rfl, rfl⟩, by omega, by omega, hz, beq_iff_eq.1 hv⟩
    · rintro ⟨r', s', ⟨rfl, rfl⟩, hr, hs, hz, hx⟩
      rw [if_neg (by omega)]
      exact (if_neg hz).trans (beq_iff_eq.2 hx)

end Ecdsa

namespace X509

theorem orMalformed_eq_error {α : Type} {o : Option α} {f : Fault} (h : orMalformed o = .error f) : f = .malformed := by
  cases o with
  | none =>
    cases h
    rfl
  | some a => cases h

namespace PublicKey

/-- Only keys of two kinds sign certificates here. -/
def Certifies : PublicKey → Prop
  | .rsa _ => True
  | .ec _ => True
  | _ => False

/-- A signature by one of the two kinds of keys, over a message and with a hash. -/
def Signs (k : PublicKey) (h : Hash) (message signature : Bytes) : Prop :=
  match k with
  | .rsa k => k.Signs h message signature
  | .ec k => k.Signs h message signature
  | _ => False

theorem Signs.certifies {k : PublicKey} {h : Hash} {message signature : Bytes} (hs : k.Signs h message signature) :
    k.Certifies := by
  cases k with
  | rsa k => trivial
  | ec k => trivial
  | _ => exact hs

theorem ofRsaBits_eq_error {bits : Bytes} {f : Fault} (h : ofRsaBits bits = .error f) : f = .malformed := by
  rcases except_bind_eq_error_iff.1 h with h | ⟨k, -, h⟩
  · exact orMalformed_eq_error h
  · rcases except_bind_eq_error_iff.1 h with h | ⟨_, -, h⟩
    · exact require_eq_error h
    · cases h

theorem ofDsaBits_eq_error {parameters : Option Der.Element} {bits : Bytes} {f : Fault}
    (h : ofDsaBits parameters bits = .error f) : f = .malformed := by
  rcases except_bind_eq_error_iff.1 h with h | ⟨_, -, h⟩
  · exact orMalformed_eq_error h
  · rcases except_bind_eq_error_iff.1 h with h | ⟨_, -, h⟩
    · exact orMalformed_eq_error h
    · cases h

theorem ofOctets_eq_error {length : Nat} {make : Bytes → PublicKey} {bits : Bytes} {f : Fault}
    (h : ofOctets length make bits = .error f) : f = .malformed := by
  unfold ofOctets at h
  split at h
  · cases h
  · cases h
    rfl

theorem ofEcBits_error_cases {parameters : Option Der.Element} {bits : Bytes} {f : Fault}
    (h : ofEcBits parameters bits = .error f) : f = .malformed ∨ f = .unsupportedAlgorithm := by
  unfold ofEcBits at h
  split at h
  · cases h
    exact .inr rfl
  · rename_i c hc
    cases hk : Ecdsa.Key.ofBytes? c bits with
    | none =>
      rw [hk] at h
      cases h
      exact .inl rfl
    | some k =>
      rw [hk] at h
      cases h

/-- There is no key where its octets are damaged or where it is of no kind that is known. -/
theorem ofInfo_error_cases {i : PublicKeyInfo} {f : Fault} (h : ofInfo i = .error f) :
    f = .malformed ∨ f = .unsupportedAlgorithm := by
  unfold ofInfo at h
  dsimp only at h
  split at h
  · exact .inl (ofRsaBits_eq_error h)
  split at h
  · exact ofEcBits_error_cases h
  split at h
  · exact .inl (ofDsaBits_eq_error h)
  split at h
  · exact .inl (ofOctets_eq_error h)
  split at h
  · exact .inl (ofOctets_eq_error h)
  split at h
  · exact .inl (ofOctets_eq_error h)
  split at h
  · exact .inl (ofOctets_eq_error h)
  split at h
  · cases hn : Der.Reader.natural.all i.bits with
    | none =>
      rw [hn] at h
      cases h
      exact .inl rfl
    | some n =>
      rw [hn] at h
      cases h
  · cases h
    exact .inr rfl

end PublicKey

namespace SignatureAlgorithm

/-- A known algorithm that is used without a hash. -/
def Hashless (a : SignatureAlgorithm) : Prop := a = .ed25519 ∨ a = .ed448 ∨ a = .hashless

/-- An algorithm that is not known, or that is used with a hash that is not. -/
def Unknown (a : SignatureAlgorithm) : Prop :=
  a = .unknown ∨ ∃ p i, a = .salted (some p) ∧ p.hash = some i ∧ i.hash? = none

/-- A salted algorithm that does not say how it is salted. -/
def Unsalted (a : SignatureAlgorithm) : Prop := a = .salted none

theorem hash_eq_none_iff {a : SignatureAlgorithm} : a.hash = .ok none ↔ a.Hashless := by
  cases a with
  | salted p =>
    cases p with
    | none => simp [hash, Hashless]
    | some p => cases hp : p.messageHash <;> simp [hash, Hashless, hp, Except.map]
  | _ => simp [hash, Hashless]

theorem messageHash_eq_error_iff {p : SaltedParameters} {f : Fault} :
    p.messageHash = .error f ↔ f = .unsupportedAlgorithm ∧ ∃ i, p.hash = some i ∧ i.hash? = none := by
  unfold SaltedParameters.messageHash SaltedParameters.hashName
  cases p.hash with
  | none => simp
  | some i => cases hi : i.hash? <;> simp [hi, eq_comm]

theorem hash_eq_error_iff {a : SignatureAlgorithm} {f : Fault} :
    a.hash = .error f ↔ (f = .unsupportedAlgorithm ∧ a.Unknown) ∨ (f = .malformed ∧ a.Unsalted) := by
  cases a with
  | salted p =>
    cases p with
    | none => simp [hash, Unknown, Unsalted, eq_comm]
    | some p =>
      have hmap : (SignatureAlgorithm.salted (some p)).hash = .error f ↔ p.messageHash = .error f := by
        show p.messageHash.map some = .error f ↔ _
        cases p.messageHash <;> simp [Except.map]
      rw [hmap, messageHash_eq_error_iff]
      simp [Unknown, Unsalted]
  | _ => simp [hash, Unknown, Unsalted, eq_comm]

end SignatureAlgorithm

/-- A certificate's signature is one of another's key, over the octets that it signs and by the hash that it names. -/
def Certificate.SignedBy (child issuer : Certificate) : Prop :=
  ∃ k h, issuer.publicKey = .ok k ∧ child.signatureHash = .ok (some h) ∧
    k.Signs h child.content.signed child.content.signature

end X509

namespace Link

variable {child issuer : Certificate}

/-- The signature is not one of the issuer's key, or there is no such key to check it with. -/
inductive Broken (child issuer : Certificate) : Prop
  | otherKey {k : PublicKey} (hk : issuer.publicKey = .ok k) (h : ¬ k.Certifies)
  | damagedKey (h : issuer.publicKey = .error .malformed)
  | unsalted {k : PublicKey} (hk : issuer.publicKey = .ok k) (hc : k.Certifies) (h : child.signatureAlgorithm.Unsalted)
  | unsigned {k : PublicKey} {h : Hash} (hk : issuer.publicKey = .ok k) (hc : k.Certifies)
      (hh : child.signatureHash = .ok (some h)) (hs : ¬ k.Signs h child.content.signed child.content.signature)

/-- The check of a link cannot be made, and why. -/
inductive Uncheckable (child issuer : Certificate) : Failure → Prop
  | unknownKey (h : issuer.publicKey = .error .unsupportedAlgorithm) :
      Uncheckable child issuer (.x509 .unsupportedAlgorithm)
  | hashless {k : PublicKey} (hk : issuer.publicKey = .ok k) (hc : k.Certifies)
      (h : child.signatureAlgorithm.Hashless) : Uncheckable child issuer .noHash
  | unknownSignature {k : PublicKey} (hk : issuer.publicKey = .ok k) (hc : k.Certifies)
      (h : child.signatureAlgorithm.Unknown) : Uncheckable child issuer (.x509 .unsupportedAlgorithm)

/-- How a link stands, in the words of the key and of the signature. -/
inductive Stands (child issuer : Certificate) : Link → Prop
  | verified (h : child.SignedBy issuer) : Stands child issuer .verified
  | broken (h : Broken child issuer) : Stands child issuer .broken
  | failed {f : Failure} (h : Uncheckable child issuer f) : Stands child issuer (.failed f)

theorem between_of_not_certifies {k : PublicKey} (hk : issuer.publicKey = .ok k) (h : ¬ k.Certifies) :
    between child issuer = .broken := by
  cases k with
  | rsa k => exact absurd trivial h
  | ec k => exact absurd trivial h
  | _ => rw [between, hk]

/-- With a key that signs certificates a link is a matter of the hash and of the signature. -/
theorem exists_between_eq_ofHash (child : Certificate) {k : PublicKey} (hk : issuer.publicKey = .ok k) (hc : k.Certifies) :
    ∃ check : Hash → Bool, (∀ h, check h = true ↔ k.Signs h child.content.signed child.content.signature) ∧
      between child issuer = ofHash child check := by
  cases k with
  | rsa k => exact ⟨_, fun h => Rsa.verify_eq_true_iff, by rw [between, hk]⟩
  | ec k => exact ⟨_, fun h => Ecdsa.verify_eq_true_iff, by rw [between, hk]⟩
  | _ => exact hc.elim

theorem stands_ofHash {k : PublicKey} {check : Hash → Bool} (hk : issuer.publicKey = .ok k) (hc : k.Certifies)
    (hcheck : ∀ h, check h = true ↔ k.Signs h child.content.signed child.content.signature) :
    Stands child issuer (ofHash child check) := by
  unfold ofHash
  split
  · rename_i h hh
    by_cases hs : check h = true
    · rw [if_pos hs]
      exact .verified ⟨k, h, hk, hh, (hcheck h).1 hs⟩
    · rw [if_neg hs]
      exact .broken (.unsigned hk hc hh fun hsigned => hs ((hcheck h).2 hsigned))
  · rename_i hh
    exact .failed (.hashless hk hc (SignatureAlgorithm.hash_eq_none_iff.1 hh))
  · rename_i hh
    rcases SignatureAlgorithm.hash_eq_error_iff.1 hh with ⟨hf, -⟩ | ⟨-, h⟩
    · cases hf
    · exact .broken (.unsalted hk hc h)
  · rename_i f hne hh
    rcases SignatureAlgorithm.hash_eq_error_iff.1 hh with ⟨rfl, h⟩ | ⟨rfl, -⟩
    · exact .failed (.unknownSignature hk hc h)
    · exact absurd rfl hne

theorem stands_between (child issuer : Certificate) : Stands child issuer (between child issuer) := by
  cases hk : issuer.publicKey with
  | error f =>
    rcases X509.PublicKey.ofInfo_error_cases hk with rfl | rfl
    · rw [between, hk]
      exact .broken (.damagedKey hk)
    · rw [between, hk]
      exact .failed (.unknownKey hk)
  | ok k =>
    by_cases hc : k.Certifies
    · obtain ⟨check, hcheck, heq⟩ := exists_between_eq_ofHash child hk hc
      rw [heq]
      exact stands_ofHash hk hc hcheck
    · rw [between_of_not_certifies hk hc]
      exact .broken (.otherKey hk hc)

theorem Stands.between_eq {l : Link} (h : Stands child issuer l) : between child issuer = l := by
  cases h with
  | verified h =>
    obtain ⟨k, h, hk, hh, hs⟩ := h
    obtain ⟨check, hcheck, heq⟩ := exists_between_eq_ofHash child hk hs.certifies
    rw [heq, ofHash, hh]
    exact if_pos ((hcheck h).2 hs)
  | broken h =>
    cases h with
    | otherKey hk h => exact between_of_not_certifies hk h
    | damagedKey h => rw [between, h]
    | unsalted hk hc h =>
      obtain ⟨check, -, heq⟩ := exists_between_eq_ofHash child hk hc
      have hh : child.signatureHash = .error .malformed := SignatureAlgorithm.hash_eq_error_iff.2 (.inr ⟨rfl, h⟩)
      rw [heq, ofHash, hh]
    | unsigned hk hc hh hs =>
      obtain ⟨check, hcheck, heq⟩ := exists_between_eq_ofHash child hk hc
      rw [heq, ofHash, hh]
      exact if_neg fun hv => hs ((hcheck _).1 hv)
  | failed h =>
    cases h with
    | unknownKey h => rw [between, h]
    | hashless hk hc h =>
      obtain ⟨check, -, heq⟩ := exists_between_eq_ofHash child hk hc
      have hh : child.signatureHash = .ok none := SignatureAlgorithm.hash_eq_none_iff.2 h
      rw [heq, ofHash, hh]
    | unknownSignature hk hc h =>
      obtain ⟨check, -, heq⟩ := exists_between_eq_ofHash child hk hc
      have hh : child.signatureHash = .error .unsupportedAlgorithm :=
        SignatureAlgorithm.hash_eq_error_iff.2 (.inl ⟨rfl, h⟩)
      rw [heq, ofHash, hh]

theorem between_eq_iff_stands {l : Link} : between child issuer = l ↔ Stands child issuer l := by
  constructor
  · rintro rfl
    exact stands_between child issuer
  · exact Stands.between_eq

theorem signed_iff : Signed child issuer ↔ child.SignedBy issuer := by
  rw [Signed, between_eq_iff_stands]
  constructor
  · rintro ⟨h⟩
    exact h
  · exact .verified

theorem between_eq_broken_iff : between child issuer = .broken ↔ Broken child issuer := by
  rw [between_eq_iff_stands]
  constructor
  · rintro (_ | h)
    exact h
  · exact .broken

theorem between_eq_failed_iff {f : Failure} : between child issuer = .failed f ↔ Uncheckable child issuer f := by
  rw [between_eq_iff_stands]
  constructor
  · rintro (_ | _ | h)
    exact h
  · exact .failed

end Link

namespace Validator

theorem signedBy_of_isChain {chain : List Certificate} (h : chain.IsChain Link.Signed) (i : Nat) (c d : Certificate)
    (hc : chain[i]? = some c) (hd : chain[i + 1]? = some d) : c.SignedBy d := by
  obtain ⟨hi, rfl⟩ := List.getElem?_eq_some_iff.1 hc
  obtain ⟨hi', rfl⟩ := List.getElem?_eq_some_iff.1 hd
  exact Link.signed_iff.1 (List.isChain_iff_getElem.1 h i hi')

/-- **No link of an accepted chain is forged**: each certificate of it is signed by the key of the next one, and the
last by the key of the anchor that the chain is given, whatever kinds of keys and signatures the chain is made of. -/
theorem validate_signed {v : Validator} {members : List ChainMember} {att : Attestation} {w : World} {a : TrustAnchor}
    (h : (v.validate members att w).1 = .ok a) :
    ∃ chain, List.Forall₂ ChainMember.Reads members chain ∧ chain ≠ [] ∧
      (∀ i c d, chain[i]? = some c → chain[i + 1]? = some d → c.SignedBy d) ∧
      ∀ c, chain.getLast? = some c → c.SignedBy a.certificate := by
  obtain ⟨chain, last, t, before, after, hd⟩ := deserves_of_validate_fst h
  obtain ⟨hchain, -, hanchor⟩ := List.isChain_append.1 hd.leads.2
  refine ⟨chain, hd.reads, ?_, signedBy_of_isChain hchain, fun c hc => ?_⟩
  · rintro rfl
    cases hd.ends
  · exact Link.signed_iff.1 (hanchor c hc a.certificate rfl)

/-- A root with an RSA key of 512 bits, a certificate with an elliptic curve key that it signed, and one that this key
signed. -/
def shortRoot : Bytes :=
  Bytes.ofNat 278
    0x308201123081bd0214592d1be4ad68a99c7f3432b56458a33b99764a7c300d06092a864886f70d01010b0500300c310a300806035504030c0152301e170d3236313132303032353734305a170d3430303732393032353734305a300c310a300806035504030c0152305a300d06092a864886f70d01010105000349003046024100bcced46a53dceb081a684a3b20f48a4bb00e919b3d1a3528b2f45f7c12a5039396a7622a629668281e74a03dac9048eef6b43d43dcb558b7f5f624cf37f797ff020103300d06092a864886f70d01010b050003410059a45b4f8651318bc9a49a4bef6cbcdbb0990b160008c1485c50bee17f34b58f806bae0ba8a37c963f3e883892b6649f22dd5b7f77801e1b2765a3d8a6dd613c

def shortIntermediate : Bytes :=
  Bytes.ofNat 257
    0x3081fe3081a9020102300d06092a864886f70d01010b0500300c310a300806035504030c0152301e170d3236313132303032353734305a170d3430303732393032353734305a300c310a300806035504030c01493059301306072a8648ce3d020106082a8648ce3d03010703420004c3ae3d6b1b19e170897681c8e9011f4466d97f2108c7a2548d23b011ae4bba73464843aa30782a3c096cb2aa06ca24ee0e3227ee50ee75a77732880a632c4202300d06092a864886f70d01010b05000341005f9e882fff749d3c363a201727b10e6dff348ff6adee1acf9d1327403b20becf7f0ed13e1645269da05fbd684fbef09e3e37cbb75543442af4d6f036c7090167

def shortLeaf : Bytes :=
  Bytes.ofNat 260
    0x308201003081a6020103300a06082a8648ce3d040302300c310a300806035504030c0149301e170d3236313132303032353734305a170d3430303732393032353734305a300c310a300806035504030c014c3059301306072a8648ce3d020106082a8648ce3d03010703420004f228e63498d8873d650dcd79ab08fbdeb8829c66145b9855dd0d80f1a1d5d8e3cea49046efd24c56bf2ef56ef7e1a2457c0db253666c9b1671091200dd82a62c300a06082a8648ce3d0403020349003046022100d039ce5b5df2b50da0d33cbb6cd2907a67808e0667138507cf81e7b48b7fa4d5022100ca49e2781f815f7fabddf6a04a565286f863707b9bcc2c941807e4a3dcab1a46

def shortAnchor : TrustAnchor := ⟨(Certificate.ofDer shortRoot).toOption.get (by decide +kernel), "root"⟩

def shortAttestation : Attestation := ⟨.bytes (List.replicate 16 1), .null, none⟩

def shortWorld : World := ⟨63962000000000000, .empty, .empty, [], [], []⟩

theorem validate_signed_by_both_kinds :
    (validate ⟨.fixed [shortAnchor], true⟩ [.octets shortLeaf, .octets shortIntermediate] shortAttestation
      shortWorld).1 = .ok shortAnchor ∧
    ∃ chain, List.Forall₂ ChainMember.Reads [.octets shortLeaf, .octets shortIntermediate] chain ∧ chain ≠ [] ∧
      (∀ i c d, chain[i]? = some c → chain[i + 1]? = some d → c.SignedBy d) ∧
      ∀ c, chain.getLast? = some c → c.SignedBy shortAnchor.certificate := by
  have hok : (validate ⟨.fixed [shortAnchor], true⟩ [.octets shortLeaf, .octets shortIntermediate] shortAttestation
      shortWorld).1 = .ok shortAnchor := by
    have hsome : (validate ⟨.fixed [shortAnchor], true⟩ [.octets shortLeaf, .octets shortIntermediate]
        shortAttestation shortWorld).1.toOption = some shortAnchor := by decide +kernel
    exact toOption_eq_some_iff.1 hsome
  exact ⟨hok, validate_signed hok⟩

end Validator
end AttestationTrust
