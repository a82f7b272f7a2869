import AttestationTrust.Bytes
/-!
# File trees

A tree of directories and files below a root.  A path is walked part by part, an absolute one from the root and any
other from the working directory: every part but the last has to be a directory, and two points lead one directory
up, from the root to the root again.

A node is a file or a directory, so there are no symbolic links, and no devices; a directory can be walked through
whoever asks, and the length of a path has no bound.
-/
namespace AttestationTrust

inductive FileNode where
  | file (content : Bytes) (readable : Bool)
  | directory (listable : Bool)
  deriving DecidableEq, Repr

structure FileTree where
  /-- The nodes by the names that lead to them from the root.  The root is a directory that need not be among them. -/
  nodes : List (List String × FileNode)
  /-- The names that lead to the working directory. -/
  workingDirectory : List String
  deriving DecidableEq, Repr, Inhabited

namespace FileTree

/-- The tree of a root that is the working directory. -/
def empty : FileTree := ⟨[], []⟩

def node? (t : FileTree) (names : List String) : Option FileNode :=
  if names = [] then some ((t.nodes.lookup []).getD (.directory true)) else t.nodes.lookup names

def isDirectoryAt (t : FileTree) (names : List String) : Bool :=
  match t.node? names with
  | some (.directory _) => true
  | _ => false

/-- The place that the parts of a path lead to, from a place that has been reached. -/
def walk (t : FileTree) : (reached : List String) → (parts : List String) → Option (List String)
  | reached, [] => some reached
  | reached, part :: parts =>
    if !t.isDirectoryAt reached then none
    else if part = "" ∨ part = "." then walk t reached parts
    else if part = ".." then walk t reached.dropLast parts
    else if (t.node? (reached ++ [part])).isSome then walk t (reached ++ [part]) parts
    else none

/-- The parts of a path between its slashes. -/
def partsOf (path : String) : List String := (path.toList.splitOn '/').map String.ofList

def isAbsolute (path : String) : Bool :=
  match path.toList with
  | '/' :: _ => true
  | _ => false

/-- The place that a path is walked from. -/
def start (t : FileTree) (path : String) : List String := if isAbsolute path then [] else t.workingDirectory

/-- The place that a path leads to, with what is there. -/
def resolve? (t : FileTree) (path : String) : Option (List String × FileNode) :=
  if path = "" then none
  else (t.walk (t.start path) (partsOf path)).bind fun names => (t.node? names).map fun n => (names, n)

def isFile (t : FileTree) (path : String) : Bool :=
  match t.resolve? path with
  | some (_, .file _ _) => true
  | _ => false

def isDirectory (t : FileTree) (path : String) : Bool :=
  match t.resolve? path with
  | some (_, .directory _) => true
  | _ => false

/-- The content of a file that can be opened. -/
def read? (t : FileTree) (path : String) : Option Bytes :=
  match t.resolve? path with
  | some (_, .file content true) => some content
  | _ => none

def childOf (names : List String) (entry : List String × FileNode) : Option String :=
  match entry with
  | (place, .file _ _) => if place.dropLast = names ∧ place ≠ [] then place.getLast? else none
  | _ => none

/-- A path with a name below it. -/
def join (path name : String) : String :=
  if path.toList.getLast? = some '/' then path ++ name else path ++ "/" ++ name

def insertSorted (s : String) : List String → List String
  | [] => [s]
  | t :: rest => if t < s then t :: insertSorted s rest else s :: t :: rest

/-- Ascending by code points. -/
def sorted (paths : List String) : List String := paths.foldr insertSorted []

/-- The paths of the files directly inside a directory, sorted; none if it cannot be listed. -/
def list? (t : FileTree) (path : String) : Option (List String) :=
  match t.resolve? path with
  | some (names, .directory true) => some (sorted ((t.nodes.filterMap (childOf names)).map (join path)))
  | _ => none

def remove (t : FileTree) (names : List String) : FileTree :=
  { t with nodes := t.nodes.filter fun e => !names.isPrefixOf e.1 }

/-- The directories above a place, made if they are not there. -/
def withParents (t : FileTree) (names : List String) : FileTree :=
  (List.range (names.length - 1)).foldl (fun t i =>
    let above := names.take (i + 1)
    if (t.node? above).isSome then t else { t with nodes := t.nodes ++ [(above, .directory true)] }) t

def put (t : FileTree) (names : List String) (n : FileNode) : FileTree :=
  let t := t.withParents names
  { t with nodes := t.nodes.filter (fun e => e.1 ≠ names) ++ [(names, n)] }

/-- The tree of a working directory with nothing in it. -/
def ofDirectory (names : List String) : FileTree :=
  { empty.put names (.directory true) with workingDirectory := names }

end FileTree
end AttestationTrust
