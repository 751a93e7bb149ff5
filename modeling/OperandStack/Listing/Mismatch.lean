import OperandStack.Yaml.Kind

/-!
# Nodes that do not fit

`Mismatch` tells where a node of a listing is not what is wanted there, and `message` how that
is said.
-/

namespace OperandStack

/-- What a node is read as. -/
inductive Target where
  | file
  | methods
  | method
  | strings
  | string
deriving DecidableEq, Repr

def Target.name : Target → Text
  | .file => "asm.listingFile"
  | .methods => "[]asm.listingMethod"
  | .method => "asm.listingMethod"
  | .strings => "[]string"
  | .string => "string"

/-- A place where a node does not fit. Lines are numbered from one. -/
inductive Mismatch where
  | scalar (line : Nat) (kind : Yaml.ScalarKind) (text : Text) (target : Target)
  | sequence (line : Nat) (target : Target)
  | mapping (line : Nat) (target : Target)
  | unknownField (line : Nat) (name : Text) (target : Target)
  | repeatedKey (line : Nat) (key : Text) (firstLine : Nat)
deriving DecidableEq, Repr

namespace Mismatch

/-- A text of more than ten bytes is cut after the seventh. -/
def excerpt (t : Text) : Text := if 10 < t.length then t.take 7 ++ "..." else t

def cannot (line : Nat) (what : Text) (target : Target) : Text :=
  "line " ++ Text.ofNat line ++ ": cannot unmarshal " ++ what ++ " into " ++ target.name

def message : Mismatch → Text
  | .scalar line kind t target =>
    cannot line (kind.tag ++ " `" ++ excerpt t ++ "`") target
  | .sequence line target => cannot line "!!seq" target
  | .mapping line target => cannot line "!!map" target
  | .unknownField line name target =>
    "line " ++ Text.ofNat line ++ ": field " ++ name ++ " not found in type " ++ target.name
  | .repeatedKey line key firstLine =>
    "line " ++ Text.ofNat line ++ ": mapping key " ++ Text.quote key ++
      " already defined at line " ++ Text.ofNat firstLine

end Mismatch

namespace Mismatch

open Yaml

/-- The text two nodes are compared by when they are keys. -/
def keyText : Node → Text
  | .scalar _ _ t => t
  | _ => []

def sameKey : Node → Node → Bool
  | .scalar _ _ s, .scalar _ _ t => s = t
  | .sequence _ _, .sequence _ _ => true
  | .mapping _ _, .mapping _ _ => true
  | _, _ => false

/-- Keys that stand in a mapping more than once, each with every one before it. -/
def repeatedKeys : List Node → List Mismatch
  | [] => []
  | key :: rest =>
    (rest.filter (sameKey key)).map
      (fun k => .repeatedKey k.line (keyText k) key.line) ++ repeatedKeys rest

end Mismatch

end OperandStack
