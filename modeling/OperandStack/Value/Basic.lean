import OperandStack.Descriptor.Basic
import OperandStack.Value.Constant

/-!
# Symbolic values

What is known about one entry of the operand stack: its type, a constant, the field it was
read from, whether it is a return address, and the allocation it still awaits a constructor
call for. A value about which nothing is known counts as one word.
-/

namespace OperandStack

/-- The field a value was read from. -/
structure FieldRef where
  owner : Text
  name : Text
  descriptor : Text
deriving DecidableEq, Repr

def FieldRef.toText (f : FieldRef) : Text := f.owner ++ "." ++ f.name ++ ":" ++ f.descriptor

/-- The empty signature means an unknown type, and site 0 a value that awaits no
constructor. -/
structure Value where
  signature : Text := []
  constant : Option Constant := none
  field : Option FieldRef := none
  returnAddress : Bool := false
  site : Int := 0
deriving DecidableEq, Repr

namespace Value

def unknown : Value := {}

def typed (sig : Text) : Value := { signature := sig }

def const (sig : Text) (c : Constant) : Value := { signature := sig, constant := some c }

def ofField (f : FieldRef) : Value := { signature := f.descriptor, field := some f }

def address : Value := { returnAddress := true }

/-- A fresh reference of allocation `site`, which has to be positive. -/
def uninitialized? (sig : Text) (site : Int) : Option Value :=
  if 0 < site then some { signature := sig, site } else none

def isUninitialized (v : Value) : Bool := v.site ≠ 0

def withSignature (v : Value) (sig : Text) : Value := { v with signature := sig }

/-- The value after its constructor has run. -/
def initialized (v : Value) : Value := { v with site := 0 }

/-- Words the value takes on the machine's stack. -/
def category (v : Value) : Nat := if FieldType.isWide v.signature then 2 else 1

def siteText (v : Value) : Text :=
  if v.site = 0 then [] else "<uninit#" ++ Text.ofInt v.site ++ ">"

def constantText (v : Value) : Text :=
  match v.constant with
  | none => []
  | some c => "=" ++ c.toText

def fieldText (v : Value) : Text :=
  match v.field with
  | none => []
  | some f => "@" ++ f.owner ++ "." ++ f.name

def toText (v : Value) : Text :=
  if v.returnAddress then "<returnAddress>"
  else
    let type : Text := if v.signature.isEmpty then "?" else v.signature
    type ++ v.siteText ++ v.constantText ++ v.fieldText

theorem category_pos (v : Value) : 0 < v.category := by
  unfold category
  split <;> decide

end Value

end OperandStack
