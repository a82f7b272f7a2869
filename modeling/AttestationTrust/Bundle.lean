import AttestationTrust.Base64
import AttestationTrust.Calendar.Moment
import AttestationTrust.Json.Reader
import AttestationTrust.World
/-!
# Bundles

A bundle is a JSON document that holds all that a run may see of the world: the time (`now`), the texts of the
files by their paths (`files`), and what each location serves, in base64 (`locations`).  The working directory is
the root of its files.
-/
namespace AttestationTrust
namespace Bundle

variable [Json.Limits]

/-- The fields of a part of the bundle; a part that is not there has none. -/
def part (key : String) (bundle : Value.Fields) : Value.Fields :=
  match Value.field? key bundle with
  | some (.map fields) => fields
  | _ => []

def namesOn (path : String) : List String := (FileTree.partsOf path).filter fun p => p != "" && p != "."

def addFile (files : FileTree) : String × Value → FileTree
  | (path, .text content) => files.put (namesOn path) (.file (Bytes.ofText content) true)
  | _ => files

def addLocation (network : Network) : String × Value → Network
  | (url, .text body) =>
    match Base64.ofText? body with
    | some bs => network.put url [.body bs]
    | none => network
  | _ => network

def time? (bundle : Value.Fields) : Option Int := do
  let v ← Value.field? "now" bundle
  let m ← Moment.ofText? (← v.text?)
  m.instant?

/-- The world of a bundle; one that does not say the time is none. -/
def world? : Value → Option World
  | .map bundle => (time? bundle).map fun now =>
    { clock := now
      files := (part "files" bundle).foldl addFile .empty
      network := (part "locations" bundle).foldl addLocation .empty
      requests := []
      log := []
      lookups := [] }
  | _ => none

/-- The world of a bundle in a text. -/
def read? (text : String) : Option World := (Json.parse text.toList).toOption.bind world?

end Bundle
end AttestationTrust
