import AttestationTrust.Settings
import AttestationTrust.World
/-!
# Endpoints

A resolver computes the list of endpoints from the settings once and answers with it until it is reset,
whatever becomes of the settings in the meantime.  A text is one endpoint, a list or a tuple contributes its
texts in order; anything else is ignored with a warning.
-/
namespace AttestationTrust

structure Resolver where
  key : String
  resolved : Option (List String)
  deriving DecidableEq, Repr

namespace Resolver

def topic : String := "mds_trust.endpoints"

def new (key : String) : Resolver := ⟨key, none⟩

/-- The resolver of the service's own setting. -/
def default : Resolver := new Setting.endpoints.key

def reset (r : Resolver) : Resolver := { r with resolved := none }

def ignoredItem (key : String) (v : Value) : LogRecord :=
  ⟨.warning, topic, "Ignoring non-string MDS endpoint " ++ v.display ++ " in " ++ key ++ "."⟩

def ignoredValue (key : String) (v : Value) : LogRecord :=
  ⟨.warning, topic, "Unsupported value type " ++ v.kindName ++ " for " ++ key ++
    "; treating MDS endpoints as unconfigured."⟩

/-- The endpoints in a value, and the warnings about what was ignored. -/
def normalise (key : String) : Value → List String × List LogRecord
  | .null => ([], [])
  | .text s => ([s], [])
  | .list xs => (xs.filterMap Value.text?, (xs.filter fun x => x.text?.isNone).map (ignoredItem key))
  | .tuple xs => (xs.filterMap Value.text?, (xs.filter fun x => x.text?.isNone).map (ignoredItem key))
  | v => ([], [ignoredValue key v])

def resolve (r : Resolver) (s : Settings) : (List String × List LogRecord) × Resolver :=
  match r.resolved with
  | some endpoints => ((endpoints, []), r)
  | none =>
    let (endpoints, warnings) := normalise r.key (s.get r.key)
    ((endpoints, warnings), { r with resolved := some endpoints })

end Resolver
end AttestationTrust
