import OperandStack.Descriptor.Method
import OperandStack.Locals.Slot

/-!
# Parameter layout

The local variable slots of the parameters of a method. An instance method keeps slot 0 for
its receiver; long and double parameters take two slots each.
-/

namespace OperandStack

structure LocalLayout where
  first : Nat
  slots : List LocalSlot
deriving DecidableEq, Repr

namespace LocalLayout

/-- Lays parameters out from `slot` on. Names go to parameters in order; a parameter without
one has an empty name. -/
def place (slot : Int) : List Text → List Text → List LocalSlot
  | [], _ => []
  | sig :: sigs, names =>
    ⟨slot, names.headD [], sig⟩ :: place (slot + FieldType.slotSize sig) sigs names.tail

/-- The layout of a method; none if there are more names than parameters. -/
def ofMethod? (static : Bool) (m : MethodDescriptor) (names : List Text) : Option LocalLayout :=
  if m.params.length < names.length then none
  else
    let first := if static then 0 else 1
    some ⟨first, place first m.params names⟩

/-- The parameter that starts at a slot. -/
def lookup (l : LocalLayout) (slot : Int) : Option LocalSlot := l.slots.find? (·.slot = slot)

end LocalLayout

end OperandStack
