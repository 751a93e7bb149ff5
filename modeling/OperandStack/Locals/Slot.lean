import OperandStack.Descriptor.Basic
import OperandStack.Number.Word

/-!
# Parameter slots

A declared parameter and the local variable slot it starts at.
-/

namespace OperandStack

structure LocalSlot where
  slot : Int
  name : Text
  signature : Text
deriving DecidableEq, Repr

namespace LocalSlot

def size (l : LocalSlot) : Nat := FieldType.slotSize l.signature

def isWide (l : LocalSlot) : Bool := FieldType.isWide l.signature

/-- A wide parameter shows both of its slots. -/
def toText (l : LocalSlot) : Text :=
  let slots : Text :=
    if l.isWide then Text.ofInt l.slot ++ "-" ++ Text.ofInt (word64 (l.slot + 1))
    else Text.ofInt l.slot
  slots ++ ":" ++ l.signature ++ " " ++ l.name

end LocalSlot

end OperandStack
