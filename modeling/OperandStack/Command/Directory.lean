import OperandStack.Text.Basic

/-!
# Files and paths

Commands name files by paths. `Directory.entry` follows a path in a directory that holds some
files and nothing else; of what stands above it only directories are known.
-/

namespace OperandStack

/-- What a path leads to. -/
inductive FileEntry where
  | file (contents : Text)
  | directory
deriving DecidableEq, Repr

/-- Why a path leads nowhere. -/
inductive PathFault where
  | missing
  | notDirectory
  | nameTooLong
  | invalid
deriving DecidableEq, Repr

def PathFault.message : PathFault → Text
  | .missing => "no such file or directory"
  | .notDirectory => "not a directory"
  | .nameTooLong => "file name too long"
  | .invalid => "invalid argument"

/-- What the paths of a command lead to. -/
abbrev Files := Text → Except PathFault FileEntry

/-- Files by their names. -/
structure Directory where
  files : List (Text × Text) := []
deriving DecidableEq, Repr

namespace Directory

/-- The longest name, and the longest path. -/
def nameLimit : Nat := 255

def pathLimit : Nat := 4095

/-- Where the part of a path that was followed leads. -/
inductive Place where
  | here
  /-- A directory above. -/
  | above
  | file (contents : Text)
deriving DecidableEq, Repr

/-- Follows one name of a path. -/
def step (d : Directory) (p : Place) (name : Text) : Except PathFault Place :=
  match p with
  | .file _ => .error .notDirectory
  | p =>
    if name = "." then .ok p
    else if name = ".." then .ok .above
    else if nameLimit < name.length then .error .nameTooLong
    else match p, d.files.lookup name with
      | .here, some contents => .ok (.file contents)
      | _, _ => .error .missing

/-- Follows the names of a path. Empty ones count only at the end, where a slash asks for a
directory. -/
def follow (d : Directory) (p : Place) (names : List Text) : Except PathFault FileEntry := do
  match ← (names.filter fun n => !n.isEmpty).foldlM d.step p with
  | .file contents =>
    if names.getLast? = some [] then throw .notDirectory else return .file contents
  | _ => return .directory

/-- What a path leads to. -/
def entry (d : Directory) : Files := fun path =>
  if path.contains 0 then .error .invalid
  else if path.isEmpty then .error .missing
  else if pathLimit < path.length then .error .nameTooLong
  else
    let slash := Text.byte '/'
    d.follow (if path.head? = some slash then .above else .here) (Text.splitOn slash path)

end Directory

end OperandStack
