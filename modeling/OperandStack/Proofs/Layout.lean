import Mathlib.Algebra.GroupWithZero.Nat
import OperandStack.Locals.Layout
import OperandStack.Proofs.Signature

/-!
# Parameters in local variables

Parameters follow each other in the order of their declaration, each on as many slots as its type
takes. `LocalLayout.start` counts the slots in front of a parameter, without the laying out. No
field type takes zero slots (`FieldType.slotSize_pos`), so a parameter ends before the next one
begins, and a slot is the first of at most one parameter. What is entered for it in a table is
therefore never replaced, and the second slot of a long or a double is the first of none.
-/

namespace OperandStack

namespace FieldType

theorem slotSize_pos {sig : Text} (h : WellFormed sig) : 0 < slotSize sig := by
  have hvoid : sig ≠ void := by
    rintro rfl
    exact not_wellFormed_void h
  unfold slotSize
  rw [if_neg hvoid]
  split <;> omega

theorem slotSize_of_isWide {sig : Text} (h : isWide sig) : slotSize sig = 2 := by
  unfold slotSize
  rw [if_pos h]

end FieldType

namespace LocalLayout

def start (sigs : List Text) (i : Nat) : Nat := ((sigs.take i).map FieldType.slotSize).sum

/-- Enters a parameter in a table, in place of what was there for its slot. -/
def enter (table : Int → Option LocalSlot) (p : LocalSlot) (s : Int) : Option LocalSlot :=
  if s = p.slot then some p else table s

section
variable {sigs names : List Text} {slot : Int} {p q : LocalSlot} {i : Nat}

@[simp] theorem start_zero (sigs : List Text) : start sigs 0 = 0 := rfl

@[simp] theorem start_cons_succ (sig : Text) (sigs : List Text) (i : Nat) :
    start (sig :: sigs) (i + 1) = FieldType.slotSize sig + start sigs i := by
  simp [start]

theorem start_succ {sig : Text} (h : sigs[i]? = some sig) :
    start sigs (i + 1) = start sigs i + FieldType.slotSize sig := by
  simp [start, List.take_add_one, h]

theorem start_length (m : MethodDescriptor) : start m.params m.params.length = m.argumentSlots := by
  rw [start, List.take_length, MethodDescriptor.argumentSlots, List.sum_eq_foldr]

/-- Each parameter starts behind those in front of it. -/
theorem getElem?_place (slot : Int) (sigs names : List Text) (i : Nat) :
    (place slot sigs names)[i]? =
      sigs[i]?.map fun sig => ⟨slot + start sigs i, names.getD i [], sig⟩ := by
  induction sigs generalizing slot names i with
  | nil => rfl
  | cons sig sigs ih =>
      cases i with
      | zero => cases names <;> simp [place]
      | succ i =>
          have hname : names.tail.getD i [] = names.getD (i + 1) [] := by cases names <;> simp
          rw [place, List.getElem?_cons_succ, List.getElem?_cons_succ, ih, hname, start_cons_succ,
            Int.natCast_add, Int.add_assoc]

theorem length_place (slot : Int) (sigs names : List Text) :
    (place slot sigs names).length = sigs.length := by
  induction sigs generalizing slot names with
  | nil => rfl
  | cons sig sigs ih => rw [place, List.length_cons, List.length_cons, ih]

theorem le_slot_of_mem_place (h : p ∈ place slot sigs names) : slot ≤ p.slot := by
  obtain ⟨i, hi⟩ := List.mem_iff_getElem?.1 h
  rw [getElem?_place, Option.map_eq_some_iff] at hi
  obtain ⟨sig, -, rfl⟩ := hi
  exact Int.le_add_of_nonneg_right (Int.natCast_nonneg _)

theorem pairwise_place (slot : Int) (sigs names : List Text) :
    (place slot sigs names).Pairwise fun p q : LocalSlot => p.slot + p.size ≤ q.slot := by
  induction sigs generalizing slot names with
  | nil => exact List.Pairwise.nil
  | cons sig sigs ih =>
      rw [place, List.pairwise_cons]
      exact ⟨fun q hq => le_slot_of_mem_place hq, ih _ _⟩

end

/-! ## Looking parameters up -/

section
variable {slots : List LocalSlot} {p q : LocalSlot}

/-- Parameters that are apart: each takes up slots, and ends before the next one begins. -/
structure Apart (slots : List LocalSlot) : Prop where
  sizes : ∀ p ∈ slots, 0 < p.size
  ends : slots.Pairwise fun p q : LocalSlot => p.slot + p.size ≤ q.slot

theorem Apart.tail (h : Apart (p :: slots)) : Apart slots :=
  ⟨fun q hq => h.sizes q (List.mem_cons_of_mem p hq), h.ends.tail⟩

theorem Apart.head_lt (h : Apart (p :: slots)) (hq : q ∈ slots) : p.slot < q.slot := by
  have hsize := h.sizes p List.mem_cons_self
  have hends := List.rel_of_pairwise_cons h.ends hq
  omega

theorem Apart.increasing (h : Apart slots) :
    slots.Pairwise fun p q : LocalSlot => p.slot < q.slot := by
  induction slots with
  | nil => exact List.Pairwise.nil
  | cons p slots ih => exact List.pairwise_cons.2 ⟨fun q hq => h.head_lt hq, ih h.tail⟩

theorem Apart.find?_eq_some_iff (h : Apart slots) (s : Int) :
    slots.find? (·.slot = s) = some p ↔ p ∈ slots ∧ p.slot = s := by
  induction slots with
  | nil => simp
  | cons q slots ih =>
      rw [List.find?_cons]
      by_cases hq : q.slot = s
      · have hlater : ¬ (p ∈ slots ∧ p.slot = s) := by
          rintro ⟨hp, rfl⟩
          have hlt := h.head_lt hp
          omega
        simp only [hq, decide_true, Option.some.injEq, List.mem_cons, or_and_right, hlater,
          or_false]
        constructor
        · rintro rfl
          exact ⟨rfl, hq⟩
        · exact fun hsame => hsame.1.symm
      · have hother : ¬ (p = q ∧ p.slot = s) := by
          rintro ⟨rfl, hs⟩
          exact hq hs
        simp only [hq, decide_false, List.mem_cons, or_and_right, hother, false_or]
        exact ih h.tail

/-- No parameter begins among the slots of another. -/
theorem Apart.not_within (h : Apart slots) (hp : p ∈ slots) (hq : q ∈ slots) :
    q.slot ≤ p.slot ∨ p.slot + p.size ≤ q.slot := by
  induction slots with
  | nil => cases hp
  | cons first slots ih =>
      rcases List.mem_cons.1 hp with rfl | hp'
      · rcases List.mem_cons.1 hq with rfl | hq'
        · exact .inl (Int.le_refl _)
        · exact .inr (List.rel_of_pairwise_cons h.ends hq')
      · rcases List.mem_cons.1 hq with rfl | hq'
        · exact .inl (Int.le_of_lt (h.head_lt hp'))
        · exact ih h.tail hp' hq'

theorem foldl_enter_of_not_mem (table : Int → Option LocalSlot) {s : Int}
    (h : ∀ p ∈ slots, p.slot ≠ s) : slots.foldl enter table s = table s := by
  induction slots generalizing table with
  | nil => rfl
  | cons p slots ih =>
      obtain ⟨hp, hrest⟩ := List.forall_mem_cons.1 h
      rw [List.foldl_cons, ih _ hrest, enter, if_neg (Ne.symm hp)]

/-- Nothing that is entered is replaced. -/
theorem Apart.foldl_enter (h : Apart slots) {table : Int → Option LocalSlot} {s : Int}
    (hnone : table s = none) : slots.foldl enter table s = slots.find? (·.slot = s) := by
  induction slots generalizing table with
  | nil => exact hnone
  | cons p slots ih =>
      rw [List.foldl_cons, List.find?_cons]
      by_cases hp : p.slot = s
      · have hrest : ∀ q ∈ slots, q.slot ≠ s := by
          intro q hq hs
          have hlt := h.head_lt hq
          omega
        rw [foldl_enter_of_not_mem _ hrest, enter, if_pos hp.symm]
        simp only [hp, decide_true]
      · have hkept : enter table p s = none := by rw [enter, if_neg (Ne.symm hp), hnone]
        simp only [hp, decide_false]
        exact ih h.tail hkept

end

/-! ## Layouts of methods -/

/-- The parameters of a well-formed descriptor are apart, wherever they start. -/
theorem apart_place {m : MethodDescriptor} (hm : m.WellFormed) (slot : Int) (names : List Text) :
    Apart (place slot m.params names) := by
  refine ⟨fun p hp => ?_, pairwise_place slot m.params names⟩
  exact FieldType.slotSize_pos (hm.params _ (signature_mem_of_mem_place hp))

theorem mem_place_iff {slot : Int} {sigs names : List Text} {p : LocalSlot} :
    p ∈ place slot sigs names ↔
      ∃ i sig, sigs[i]? = some sig ∧ p = ⟨slot + start sigs i, names.getD i [], sig⟩ := by
  rw [List.mem_iff_getElem?]
  apply exists_congr
  intro i
  rw [getElem?_place, Option.map_eq_some_iff]
  apply exists_congr
  intro sig
  rw [eq_comm (a := p)]

/-- Parameters are laid out in the order of their declaration, without gaps. For any descriptor
that can be read and names for at most its parameters there is a layout. Its first slot is 1, or 0
in a static method. A parameter is found at a slot if the slots of those in front of it end there,
and nothing is found at any other slot, the second one of a long or double parameter among them.
The slots increase, each parameter starts where the one in front of it ends, and the last one ends
with the slots of the arguments. Entering the parameters in a table replaces none of them. -/
theorem parameters_follow_each_other (static : Bool) {desc : Text} {m : MethodDescriptor}
    {names : List Text} (hparse : MethodDescriptor.parse desc = .ok m)
    (hnames : names.length ≤ m.params.length) :
    ∃ l, ofMethod? static m names = some l ∧ l.first = (if static then 0 else 1) ∧
      (∀ (s : Int) (p : LocalSlot), l.lookup s = some p ↔
        ∃ i sig, m.params[i]? = some sig ∧ s = l.first + start m.params i ∧
          p = ⟨s, names.getD i [], sig⟩) ∧
      l.slots.length = m.params.length ∧
      (∀ i : Nat, l.slots[i]? = m.params[i]?.map fun sig =>
        (⟨l.first + start m.params i, names.getD i [], sig⟩ : LocalSlot)) ∧
      (l.slots.Pairwise fun p q : LocalSlot => p.slot < q.slot) ∧
      (∀ (i : Nat) (p q : LocalSlot), l.slots[i]? = some p → l.slots[i + 1]? = some q →
        q.slot = p.slot + p.size) ∧
      (∀ p ∈ l.slots.getLast?, p.slot + p.size = l.first + m.argumentSlots) ∧
      (∀ p ∈ l.slots, p.isWide → l.lookup (p.slot + 1) = none) ∧
      ∀ s, l.slots.foldl enter (fun _ => none) s = l.lookup s := by
  have hm := (MethodDescriptor.parse_eq_ok_iff.1 hparse).1
  let first : Nat := if static then 0 else 1
  have hmade : ofMethod? static m names = some ⟨first, place first m.params names⟩ := by
    rw [ofMethod?, if_neg (Nat.not_lt.2 hnames)]
  have hapart := apart_place hm first names
  refine ⟨_, hmade, rfl, ?_, length_place _ _ _, getElem?_place _ _ _, hapart.increasing, ?_, ?_,
    ?_, fun s => hapart.foldl_enter rfl⟩
  · intro s p
    rw [lookup, hapart.find?_eq_some_iff, mem_place_iff]
    constructor
    · rintro ⟨⟨i, sig, hsig, rfl⟩, rfl⟩
      exact ⟨i, sig, hsig, rfl, rfl⟩
    · rintro ⟨i, sig, hsig, rfl, rfl⟩
      exact ⟨⟨i, sig, hsig, rfl⟩, rfl⟩
  · intro i p q hp hq
    rw [getElem?_place, Option.map_eq_some_iff] at hp hq
    obtain ⟨sig, hsig, rfl⟩ := hp
    obtain ⟨sig', -, rfl⟩ := hq
    simp only [LocalSlot.size, start_succ hsig]
    omega
  · intro p hp
    rw [Option.mem_def, List.getLast?_eq_getElem?, getElem?_place, Option.map_eq_some_iff] at hp
    obtain ⟨sig, hsig, rfl⟩ := hp
    have hlength : m.params.length - 1 + 1 = m.params.length := by
      have hlt := (List.getElem?_eq_some_iff.1 hsig).1
      rw [length_place] at hlt
      omega
    have hend := start_succ hsig
    rw [length_place, hlength, start_length] at hend
    simp only [LocalSlot.size, length_place]
    omega
  · intro p hp hwide
    rw [Option.eq_none_iff_forall_ne_some]
    intro q hq
    rw [lookup, hapart.find?_eq_some_iff] at hq
    obtain ⟨hmem, hslot⟩ := hq
    have hsize : p.size = 2 := FieldType.slotSize_of_isWide hwide
    have hnot := hapart.not_within hp hmem
    omega

/-- A long among the parameters of an instance method, of which the first has a name. -/
theorem parameters_follow_each_other_wide :
    ∃ l, ofMethod? false ⟨["I", "J", "[D"], "V"⟩ ["count"] = some l ∧
      l.lookup 2 = some ⟨2, [], "J"⟩ ∧ l.lookup 3 = none ∧
      l.slots = [⟨1, "count", "I"⟩, ⟨2, [], "J"⟩, ⟨4, [], "[D"⟩] := by
  have hparse : MethodDescriptor.parse "(IJ[D)V" = .ok ⟨["I", "J", "[D"], "V"⟩ := by decide +kernel
  have hnames : (["count"] : List Text).length ≤ 3 := by decide
  obtain ⟨l, hmade, hfirst, hlookup, -, hslots, -, -, -, hwide, -⟩ :=
    parameters_follow_each_other false hparse hnames
  have hlist : l.slots = [⟨1, "count", "I"⟩, ⟨2, [], "J"⟩, ⟨4, [], "[D"⟩] := by
    apply List.ext_getElem?
    intro i
    rw [hslots, hfirst]
    match i with
    | 0 => decide +kernel
    | 1 => decide +kernel
    | 2 => decide +kernel
    | i + 3 => rfl
  refine ⟨l, hmade, ?_, ?_, hlist⟩
  · exact (hlookup _ _).2 ⟨1, "J", rfl, by rw [hfirst]; decide +kernel, rfl⟩
  · exact hwide ⟨2, [], "J"⟩ (by simp [hlist]) (by decide)

end LocalLayout

end OperandStack
