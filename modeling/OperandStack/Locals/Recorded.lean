import OperandStack.Value.Basic

/-!
# Recorded slots

The last value stored in each local variable slot, where it is still known.
-/

namespace OperandStack

/-- Slots with the value stored there; no slot occurs twice. -/
abbrev Recorded := List (Int × Value)

namespace Recorded

def get? (r : Recorded) (slot : Int) : Option Value := List.lookup slot r

def erase (r : Recorded) (slot : Int) : Recorded := r.filter fun p => p.1 ≠ slot

def set (r : Recorded) (slot : Int) (v : Value) : Recorded := (slot, v) :: r.erase slot

/-- Forgets a wide value that reaches into `slot` from the slot before. -/
def uncover (r : Recorded) (slot : Int) : Recorded :=
  match r.get? (slot - 1) with
  | some v => if v.category = 2 then r.erase (slot - 1) else r
  | none => r

/-- Stores a value; a wide one also takes the slot after. -/
def store (r : Recorded) (slot : Int) (v : Value) : Recorded :=
  let r := (r.uncover slot).set slot v
  if v.category = 2 then r.erase (slot + 1) else r

/-- Marks the references of an allocation as constructed. -/
def construct (r : Recorded) (site : Int) : Recorded :=
  r.map fun p => (p.1, if p.2.site = site then p.2.initialized else p.2)

@[simp] theorem get?_nil (slot : Int) : get? [] slot = none := rfl

theorem get?_cons (p : Int × Value) (r : Recorded) (slot : Int) :
    get? (p :: r) slot = if slot = p.1 then some p.2 else r.get? slot := by
  rw [get?, List.lookup_cons]
  by_cases h : slot = p.1
  · simp [h]
  · rw [beq_false_of_ne h, if_neg h]
    rfl

@[simp] theorem get?_erase (r : Recorded) (slot other : Int) :
    (r.erase slot).get? other = if other = slot then none else r.get? other := by
  induction r with
  | nil => simp [erase]
  | cons p r ih =>
    simp only [erase] at ih
    by_cases hp : p.1 = slot <;> by_cases ho : other = p.1 <;> grind [erase, get?_cons]

@[simp] theorem get?_set (r : Recorded) (slot other : Int) (v : Value) :
    (r.set slot v).get? other = if other = slot then some v else r.get? other := by
  rw [set, get?_cons, get?_erase]
  split <;> rfl

/-- Of the slot before, only a wide value is forgotten. -/
theorem get?_uncover_eq_some_iff (r : Recorded) (slot other : Int) (v : Value) :
    (r.uncover slot).get? other = some v ↔
      r.get? other = some v ∧ ¬ (other = slot - 1 ∧ v.category = 2) := by
  unfold uncover
  split
  · next w hw => split <;> grind [get?_erase]
  · next hnone => grind

/-- Storing keeps what it neither overwrites nor covers, and no wide value whose second half it
overwrites. -/
theorem get?_store_eq_some_iff (r : Recorded) (slot other : Int) (v w : Value) :
    (r.store slot v).get? other = some w ↔
      other = slot ∧ w = v ∨
      other ≠ slot ∧ ¬ (v.category = 2 ∧ other = slot + 1) ∧ r.get? other = some w ∧
        ¬ (other = slot - 1 ∧ w.category = 2) := by
  have hset : ((r.uncover slot).set slot v).get? other = some w ↔
      other = slot ∧ w = v ∨
      other ≠ slot ∧ r.get? other = some w ∧ ¬ (other = slot - 1 ∧ w.category = 2) := by
    rw [get?_set]
    split
    · next h => simp [h, eq_comm]
    · next h => simp [h, get?_uncover_eq_some_iff]
  unfold store
  split
  · next hwide => grind [get?_erase]
  · next hnarrow => grind

end Recorded

end OperandStack
