import OperandStack.Value.Basic

/-!
# Loadable constants

The constants an instruction can load: those a stack entry can be known to hold, and class
literals, method handles and other constants whose type is not modelled.
-/

namespace OperandStack

/-- A method handle. -/
structure Handle where
  tag : Int := 0
  owner : Text := []
  name : Text := []
  descriptor : Text := []
deriving DecidableEq, Repr

def Handle.toText (h : Handle) : Text :=
  h.owner ++ "." ++ h.name ++ h.descriptor ++ " (" ++ Text.ofInt h.tag ++ ")"

inductive Literal where
  /-- The absent constant. -/
  | absent
  | int (value : Int32)
  | long (value : Int64)
  | float (bits : UInt32)
  | double (bits : UInt64)
  | string (text : Text)
  | classRef (name : Text)
  | handle (h : Handle)
  | bool (value : Bool)
  /-- An integer of no particular width. -/
  | integer (value : Int)
deriving DecidableEq, Repr

namespace Literal

/-- The constant of a stack entry; the absent literal is the null reference. -/
def constant? : Literal → Option Constant
  | .absent => some .null
  | .int v => some (.int v)
  | .long v => some (.long v)
  | .float bits => some (.float bits)
  | .double bits => some (.double bits)
  | .string t => some (.string t)
  | _ => none

/-- The value on the stack after the literal has been loaded. -/
def value : Literal → Value
  | .int v => .const FieldType.int (.int v)
  | .long v => .const FieldType.long (.long v)
  | .float bits => .const FieldType.float (.float bits)
  | .double bits => .const FieldType.double (.double bits)
  | .string t => .const FieldType.string (.string t)
  | _ => .unknown

def toText : Literal → Text
  | .absent => "<nil>"
  | .int v => Text.ofInt v.toInt
  | .long v => Text.ofInt v.toInt
  | .float bits => Format.single.write bits.toNat
  | .double bits => Format.double.write bits.toNat
  | .string t => t
  | .classRef name => name
  | .handle h => h.toText
  | .bool b => if b then "true" else "false"
  | .integer n => Text.ofInt n

end Literal

end OperandStack
