import AttestationTrust.Anchor
/-!
# Chain validation

A chain is a list of certificates, the authenticator's own first.  It is trusted when it is valid at a moment
and leads, signature by signature, to an anchor that is registered for the authenticator; the answer is the
first anchor that it leads to (`Validator.validate`).  With `fullChainProhibited` the chain has to stop short of
its root.
-/
namespace AttestationTrust

open X509 (Certificate PublicKey)

/-- A member of a chain: octets that have to be read first, or a certificate. -/
inductive ChainMember where
  | octets (bs : Bytes)
  | certificate (c : Certificate)

namespace ChainMember

def load (position : Nat) : ChainMember → Except Failure Certificate
  | .certificate c => .ok c
  | .octets bs =>
    match Certificate.load bs with
    | .error (.certificate f) => .error (.chain (.badMember position f))
    | r => r

def loadAll : (position : Nat) → List ChainMember → Except Failure (List Certificate)
  | _, [] => .ok []
  | position, m :: ms => do
    let c ← m.load position
    let cs ← loadAll (position + 1) ms
    .ok (c :: cs)

end ChainMember

/-- How a certificate stands to the one that is to have signed it. -/
inductive Link where
  | verified
  | broken
  /-- The check itself cannot be made. -/
  | failed (f : Failure)

namespace Link

/-- A signature with a hash, checked by the key's own kind of algorithm over that hash. -/
def ofHash (child : Certificate) (check : Hash → Bool) : Link :=
  match child.signatureHash with
  | .ok (some h) => if check h then .verified else .broken
  | .ok none => .failed .noHash
  | .error .malformed => .broken
  | .error f => .failed (.x509 f)

/-- Only two kinds of key sign certificates here. -/
def between (child issuer : Certificate) : Link :=
  match issuer.publicKey with
  | .ok (.rsa k) => ofHash child fun h => Rsa.verify k h child.content.signed child.content.signature
  | .ok (.ec k) => ofHash child fun h => Ecdsa.verify k h child.content.signed child.content.signature
  | .ok _ => .broken
  | .error .malformed => .broken
  | .error f => .failed (.x509 f)

/-- Every certificate beside the next one; the first link that does not hold decides. -/
def ofChain : List Certificate → Link
  | child :: issuer :: rest =>
    match between child issuer with
    | .verified => ofChain (issuer :: rest)
    | l => l
  | _ => .verified

end Link

structure Validator where
  repository : Repository
  fullChainProhibited : Bool

/-- What is stated of an attestation beside its chain. -/
structure Attestation where
  aaguid : Value
  keyIdentifier : Value
  /-- The moment of validity, the clock's own if none is given. -/
  moment : Option Moment

namespace Validator

def topic : String := "mds_trust.validator"

/-- The anchors registered for a model, or for a key when the model is not given or is the zero one. -/
def findAnchors (v : Validator) (leaf : Certificate) (att : Attestation) : Action (List TrustAnchor) := do
  match ← Action.ofExcept (Aaguid.ofValue att.aaguid) with
  | some bs =>
    if bs = Aaguid.zero then findByKey leaf else v.repository.find (.aaguid bs)
  | none => findByKey leaf
where
  findByKey (leaf : Certificate) : Action (List TrustAnchor) := do
    if att.keyIdentifier.truthy then v.repository.findByKey att.keyIdentifier
    else v.repository.findByKey (.bytes (← Action.ofX509 leaf.keyIdentifier))

/-- Whether a chain holds a registered certificate, or ends in one that signed itself. -/
def holdsRoot (chain : List Certificate) (last : Certificate) (anchors : List TrustAnchor) : Except Failure Bool :=
  if chain.any fun c => anchors.any fun a => a.certificate = c then .ok true
  else last.isSelfSigned.mapError .x509

/-- Every certificate has to be valid at an instant. -/
def checkValidity (instant : Int) : List Certificate → Except Failure Unit
  | [] => .ok ()
  | c :: cs => do
    if ← (c.isValidAt instant).mapError .x509 then checkValidity instant cs
    else
      let subject ← c.subjectText.mapError .x509
      .error (.chain (.notValidAt subject (Moment.ofInstant instant).text))

/-- The first anchor of the issuer's name to which the chain leads. -/
def findIssuer (chain : List Certificate) (last : Certificate) : List TrustAnchor → Action TrustAnchor
  | [] => throw (.chain .unverified)
  | a :: rest => do
    let issuer ← Action.ofX509 last.issuer
    let subject ← Action.ofX509 a.certificate.subject
    if !X509.Name.same issuer subject then findIssuer chain last rest
    else
      match Link.ofChain (chain ++ [a.certificate]) with
      | .verified => pure a
      | .failed f => throw f
      | .broken =>
        Action.log .debug topic
          ("Chain does not verify against anchor " ++ subject.text ++ ": " ++ Failure.unworded)
        findIssuer chain last rest

def instantOf (moment : Option Moment) (clock : Int) : Except Failure Int :=
  match moment with
  | none => .ok clock
  | some m =>
    match m.instant? with
    | some t => .ok t
    | none => .error (.range .unworded)

/-- The anchor that a chain leads to. -/
def validate (v : Validator) (members : List ChainMember) (att : Attestation) : Action TrustAnchor := do
  match ← Action.ofExcept (ChainMember.loadAll 1 members) with
  | [] => throw (.chain .empty)
  | leaf :: rest =>
    let chain := leaf :: rest
    let last := rest.getLastD leaf
    let anchors ← v.findAnchors leaf att
    if anchors.isEmpty then throw (.chain .noAnchor)
    if v.fullChainProhibited then
      if ← Action.ofExcept (holdsRoot chain last anchors) then throw (.chain .holdsRoot)
    let instant ← Action.ofExcept (instantOf att.moment (← get).clock)
    Action.ofExcept (checkValidity instant chain)
    findIssuer chain last anchors

/-- Whether a chain is trusted; a failure that does not concern the chain remains one. -/
def isTrustworthy (v : Validator) (members : List ChainMember) (att : Attestation) : Action Bool := do
  match ← Action.attempt (v.validate members att) with
  | .ok _ => pure true
  | .error (.chain _) => pure false
  | .error f => throw f

/-- The anchor of an attestation's trust path, if it has one that is trusted.  A validator is needed only where
there is a path. -/
def lookUpAuthority (found : Option Validator) (path : List ChainMember) (aaguid : Value) :
    Action (Option Certificate) := do
  match path, found with
  | [], _ => pure none
  | _, none => throw .noSuchPart
  | _, some v =>
    match ← Action.attempt (v.validate path ⟨aaguid, .null, none⟩) with
    | .ok a => pure (some a.certificate)
    | .error (.chain f) =>
      Action.log .info topic ("Attestation trust path rejected: " ++ f.message)
      pure none
    | .error f => throw f

end Validator
end AttestationTrust
