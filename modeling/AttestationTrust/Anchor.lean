import AttestationTrust.Metadata.Local
import AttestationTrust.X509.Document
/-!
# Trust anchors

An anchor is a certificate that a chain may end at, with the source that states it.  Anchors are looked up by
the identifier of an authenticator model or by that of an attestation key.  A `Repository` answers lookups from
the payloads of BLOBs, from statement files, or from several repositories together; together they answer with
each certificate once, where it came first (`Repository.merge`).
-/
namespace AttestationTrust

open X509 (Certificate)
open Metadata (Listing Entry Payload StatementFiles LocalStatements)

structure TrustAnchor where
  certificate : Certificate
  source : String
  deriving DecidableEq

/-- Sixteen octets: the length of the identifier of a model. -/
def aaguidLength : Nat := 16

namespace Value

/-- An octet in a list of numbers. -/
def octet? : Value → Except Failure UInt8
  | .int n => if 0 ≤ n ∧ n < 256 then .ok (UInt8.ofNat n.toNat) else .error (.value .unworded)
  | .bool b => .ok (if b then 1 else 0)
  | _ => .error (.kind .unworded)

/-- A byte string from a value: itself, zeros in a number, or the numbers of a list. -/
def octets : Value → Except Failure Bytes
  | .bytes bs => .ok bs
  | .bool b => .ok (if b then [0] else [])
  | .int n =>
    if n < 0 then .error (.value .unworded)
    else if n < 4294967296 then .ok (List.replicate n.toNat 0)
    else .error (.range .unworded)
  | .list xs => xs.mapM octet?
  | .tuple xs => xs.mapM octet?
  | .map [] => .ok []
  | _ => .error (.kind .unworded)

end Value

namespace Aaguid

/-- The octets of a text: hexadecimal digits with hyphens anywhere and blanks around them. -/
def ofText? (s : String) : Option Bytes :=
  match Hex.decode ((Text.trimList s.toList).filter (· != '-')) with
  | some bs => if bs.length = aaguidLength then some bs else none
  | none => none

/-- The identifier that a value stands for; a text or a byte string of another form stands for none. -/
def ofValue : Value → Except Failure (Option Bytes)
  | .null => .ok none
  | .text s => .ok (ofText? s)
  | v => v.octets.map fun bs => if bs.length = aaguidLength then some bs else none

def zero : Bytes := List.replicate aaguidLength 0

/-- The digits in groups of eight, three times four, and twelve. -/
def text (bs : Bytes) : String :=
  let ds := Hex.encode bs
  let part := fun (i n : Nat) => (ds.drop i).take n
  String.ofList ('-' :: [] |>.intercalate [part 0 8, part 8 4, part 12 4, part 16 4, part 20 12])

end Aaguid

namespace KeyIdentifier

/-- The octets of a key identifier; a value of another kind has none. -/
def ofValue : Value → Option Bytes
  | .text s => Hex.decode (Text.trimList s.toList)
  | .bytes bs => some bs
  | _ => none

end KeyIdentifier

namespace Anchors

def topic : String := "mds_trust.anchors"

/-- The values that a field consists of; one that counts as false has none. -/
def itemsOf (v : Value) : Except Failure (List Value) :=
  if !v.truthy then .ok []
  else
    match Metadata.Shape.items v with
    | some xs => .ok xs
    | none => .error (.kind .unworded)

/-- The anchors among the roots of a listing; a root that is no certificate is logged and left out. -/
def ofRoots (source : String) : List Value → Action (List TrustAnchor)
  | [] => pure []
  | root :: roots => do
    let bs ← Action.ofExcept root.octets
    match Certificate.load bs with
    | .ok c =>
      let rest ← ofRoots source roots
      pure (⟨c, source⟩ :: rest)
    | .error (.certificate f) =>
      Action.log .warning topic
        ("Ignoring unparsable attestation root certificate from " ++ source ++ ": " ++ f.message)
      ofRoots source roots
    | .error f => throw f

def ofListing (l : Listing) (source : String) : Action (List TrustAnchor) := do
  ofRoots source (← Action.ofExcept (itemsOf l.roots))

def matchesAaguid (candidate : Value) (wanted : Bytes) : Except Failure Bool :=
  match candidate with
  | .null => .ok false
  | v => v.octets.map (· == wanted)

def matchesKey (identifiers : Value) (wanted : Bytes) : Except Failure Bool :=
  (itemsOf identifiers).map fun xs => xs.any fun x => KeyIdentifier.ofValue x == some wanted

end Anchors

/-- What a lookup asks for: the octets of a model, or the value given as a key identifier. -/
inductive Query where
  | aaguid (bs : Bytes)
  | key (v : Value)

namespace Query

/-- The octets asked for; a value that has none fails when they are needed. -/
def octets : Query → Except Failure Bytes
  | .aaguid bs => .ok bs
  | .key v => v.octets

def lookup : Query → Bytes → Lookup
  | .aaguid _, bs => .aaguid bs
  | .key _, bs => .keyIdentifier bs

/-- Whether a listing is the one asked for. -/
def isFor (q : Query) (aaguid keyIdentifiers : Value) : Except Failure Bool :=
  match q with
  | .aaguid bs => Anchors.matchesAaguid aaguid bs
  | .key v => do
    let wanted ← v.octets
    Anchors.matchesKey keyIdentifiers wanted

end Query

/-- A source of BLOB entries under its location; one that has not been loaded has none. -/
structure BlobSource where
  url : String
  entries : Option (List Entry)
  deriving Inhabited

inductive Repository where
  | blobs (sources : List BlobSource) (filtered : Bool)
  | statements (files : StatementFiles)
  | together (first second : Repository) (more : List Repository)
  /-- A listing that answers every lookup and keeps a record of it. -/
  | fixed (anchors : List TrustAnchor)

namespace Repository

open Anchors (topic)

/-- The anchors of an entry that has a statement and is the one asked for; the entry's own identifiers count
before those of its statement. -/
def ofEntry (q : Query) (url : String) (e : Entry) : Action (List TrustAnchor) :=
  match e.statement with
  | none => pure []
  | some s => do
    let aaguid := match e.aaguid with
      | .null => s.aaguid
      | v => v
    let keys := if e.keyIdentifiers.truthy then e.keyIdentifiers else s.keyIdentifiers
    if ← Action.ofExcept (q.isFor aaguid keys) then Anchors.ofListing s url else pure []

def ofEntries (q : Query) (filtered : Bool) (url : String) : List Entry → Action (List TrustAnchor)
  | [] => pure []
  | e :: es => do
    let trusted ← if filtered then Action.ofExcept e.isTrusted? else pure true
    let here ← if trusted then ofEntry q url e else pure []
    let rest ← ofEntries q filtered url es
    pure (here ++ rest)

def ofSources (q : Query) (filtered : Bool) : List BlobSource → Action (List TrustAnchor)
  | [] => pure []
  | s :: rest => do
    let here ← match s.entries with
      | some entries => ofEntries q filtered s.url entries
      | none => do
        Action.log .warning topic
          ("Skipping MDS BLOB provider " ++ s.url ++ ": " ++ (BlobFault.notLoaded s.url).message)
        pure []
    let more ← ofSources q filtered rest
    pure (here ++ more)

def ofStatements (q : Query) : List (String × Metadata.Statement) → Action (List TrustAnchor)
  | [] => pure []
  | (path, s) :: rest => do
    let l := s.listing
    let here ← if ← Action.ofExcept (q.isFor l.aaguid l.keyIdentifiers) then Anchors.ofListing l path else pure []
    let more ← ofStatements q rest
    pure (here ++ more)

/-- Each certificate once, where it comes first; `seen` are those that have come already. -/
def distinct (seen : List Certificate) : List TrustAnchor → List TrustAnchor
  | [] => []
  | a :: rest =>
    if a.certificate ∈ seen then distinct seen rest
    else a :: distinct (a.certificate :: seen) rest

/-- The answers of several repositories as one. -/
def merge (answers : List (List TrustAnchor)) : List TrustAnchor := distinct [] answers.flatten

mutual

def find (q : Query) : Repository → Action (List TrustAnchor)
  | .blobs sources filtered => ofSources q filtered sources
  | .statements files => ofStatements q files.loaded
  | .together first second more => do
    let a ← find q first
    let b ← find q second
    let rest ← findAll q more
    pure (merge (a :: b :: rest))
  | .fixed anchors => do
    let bs ← Action.ofExcept q.octets
    modify fun w => { w with lookups := w.lookups ++ [q.lookup bs] }
    pure anchors

def findAll (q : Query) : List Repository → Action (List (List TrustAnchor))
  | [] => pure []
  | r :: rs => do
    let here ← find q r
    let rest ← findAll q rs
    pure (here :: rest)

end

/-- A lookup by the value given as the identifier of a model. -/
def findByAaguid (r : Repository) (v : Value) : Action (List TrustAnchor) := do
  match ← Action.ofExcept (Aaguid.ofValue v) with
  | some bs => find (.aaguid bs) r
  | none => pure []

def findByKey (r : Repository) (v : Value) : Action (List TrustAnchor) := find (.key v) r

/-- Several repositories together; fewer than two are refused. -/
def aggregate : List Repository → Except Failure Repository
  | first :: second :: more => .ok (.together first second more)
  | _ => .error (.value .tooFewSources)

/-- The repository of the sources that are there. -/
def combine (blobs : Option Repository) : LocalStatements → Option Repository
  | .absent _ => blobs
  | .present files =>
    match blobs with
    | none => some (.statements files)
    | some b => some (.together b (.statements files) [])

/-- The word for a repository's kind. -/
def kindText : Repository → String
  | .blobs _ _ => "blob"
  | .statements _ => "statements"
  | .together _ _ _ => "aggregate"
  | .fixed _ => "static"

end Repository
end AttestationTrust
