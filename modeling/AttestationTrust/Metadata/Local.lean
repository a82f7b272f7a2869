import AttestationTrust.Metadata.Payload
import AttestationTrust.World
/-!
# Local statements

Statements may come from the files directly inside a directory.  A file that cannot be read, or that holds no
statement, is logged and left out; what is left counts only if it is not empty.
-/
namespace AttestationTrust
namespace Metadata

variable [Json.Limits]

/-- The statements of a set of files, each beside the path it was read from. -/
structure StatementFiles where
  paths : List String
  loaded : List (String × Statement)
  deriving Repr, Inhabited

inductive LocalStatements where
  | absent (reason : String)
  | present (files : StatementFiles)
  deriving Repr, Inhabited

namespace StatementFiles

def topic : String := "mds_trust.statements"

def size (f : StatementFiles) : Nat := f.loaded.length

/-- The statement in a file; no path holds the character of code zero. -/
def readFile (path : String) (files : FileTree) : Except Failure Statement :=
  if path.toList.any (·.toNat == 0) then .error (.value .unworded)
  else
    match files.read? path with
    | none => .error .unreadable
    | some bs => Statement.parse path bs

/-- Whether a failure concerns one file alone. -/
def isSkipped : Failure → Bool
  | .unreadable => true
  | .statement _ => true
  | _ => false

def loadAll : List String → Action (List (String × Statement))
  | [] => pure []
  | path :: paths => do
    match readFile path (← get).files with
    | .ok s =>
      let rest ← loadAll paths
      pure ((path, s) :: rest)
    | .error f =>
      if isSkipped f then
        Action.log .error topic ("Skipping metadata statement " ++ path ++ ": " ++ f.shown)
        loadAll paths
      else throw f

def load (paths : List String) : Action StatementFiles := do
  let loaded ← loadAll paths
  pure ⟨paths, loaded⟩

end StatementFiles

namespace LocalStatements

open StatementFiles (topic)

def notConfigured : String := "metadata statement directory is not configured or missing"
def emptyDirectory : String := "metadata statement directory is empty"
def noneUsable : String := "no usable metadata statements"

def load (directory : String) : Action LocalStatements := do
  let files := (← get).files
  if !files.isDirectory directory then pure (.absent notConfigured)
  else
    match files.list? directory with
    | none =>
      Action.log .error topic
        ("Exception in listing metadata statements in " ++ directory ++ ": " ++ Failure.unworded)
      pure (.absent ("unable to list " ++ directory))
    | some [] =>
      Action.log .debug topic "No metadata statements found in the configured directory."
      pure (.absent emptyDirectory)
    | some paths =>
      let found ← StatementFiles.load paths
      if found.loaded.isEmpty then
        Action.log .warning topic
          ("None of the files in " ++ directory ++ " contained a usable metadata statement.")
        pure (.absent noneUsable)
      else
        Action.log .info topic
          ("Loaded " ++ toString found.size ++ " local metadata statements from " ++ directory ++ ".")
        pure (.present found)

/-- Local statements are loaded from files: no value stands for them. -/
def ofValue (v : Value) : Except Failure LocalStatements := .error (.kind (.localStatements v.display))

def count : LocalStatements → Nat
  | .absent _ => 0
  | .present f => f.size

end LocalStatements
end Metadata
end AttestationTrust
