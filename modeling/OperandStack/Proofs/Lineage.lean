import Mathlib.Data.List.Forall2
import OperandStack.Proofs.SlotHistory

/-!
# Where values stem from

Values get about in a body: shuffles copy entries, casts give them another type, stores and loads
take them to slots and back. A `Lineage` follows them on their ways and tells of every entry and
every recorded slot which event brought its value in, if that was an allocation.

References that await their constructor are marked with the number of their allocation. A lineage
knows nothing of marks. `Lineage.Agrees` relates the two at all places of an engine, and each
accepted element of a body keeps them related (`Lineage.Agrees.instruction`).
-/

namespace OperandStack

/-- Where an engine keeps values: entries of the stack, counted from the top, and slots. -/
inductive Place where
  | entry (depth : Nat)
  | slot (n : Int)
deriving DecidableEq, Repr

def Engine.at? (e : Engine) : Place → Option Value
  | .entry depth => e.view[depth]?
  | .slot n => e.recorded.get? n

/-- The events that the entries, the top first, and the slots stem from. -/
structure Lineage where
  stack : List (Option Nat) := []
  slots : Int → Option Nat := fun _ => none

namespace Lineage

def at? (l : Lineage) : Place → Option Nat
  | .entry depth => l.stack[depth]?.join
  | .slot n => l.slots n

/-- What stems from where among the entries that an instruction pushes: copies from the entries
that were taken, a loaded value from its slot, a fresh reference from event `i`, and all others
from nowhere. -/
def pushed (l : Lineage) (e : Engine) (ins : Instruction) (i : Nat) (effect : Effect) :
    List (Option Nat) :=
  let taken := l.stack.take effect.pops.toNat
  let copies := taken ++ taken.take (effect.pushes - effect.pops).toNat
  match ins.action? with
  | some .dup => copies
  | some .dupBelow => copies
  | some (.dupWords _ _) => copies
  | some .swap => taken.reverse
  | some .cast => taken
  | some (.load _ implied) =>
      [(ins.slot? implied).bind fun n => (e.recorded.get? n).bind fun _ => l.slots n]
  | some .allocate => [some i]
  | _ => List.replicate effect.pushes.toNat none

/-- A store puts what lies on top into its slot; an incremented value stems from nowhere. -/
def stored (l : Lineage) (e : Engine) (ins : Instruction) : Int → Option Nat :=
  match e.write? ins with
  | some (slot, _) => fun n =>
      if n = slot then
        match ins.action? with
        | some (.store _) => l.stack.head?.join
        | _ => none
      else l.slots n
  | none => l.slots

def next (l : Lineage) (e : Engine) (i : Nat) : Event → Lineage
  | .instruction (some ins) =>
      match ins.effect e.view with
      | .ok effect =>
          { stack := l.pushed e ins i effect ++ l.stack.drop effect.pops.toNat
            slots := if e.config.trackLocals then l.stored e ins else l.slots }
      | .error _ => l
  | .label _ => { l with slots := fun _ => none }
  | _ => l

/-- The lineage once an event has failed, which may have taken entries away. -/
def left (l : Lineage) (e : Engine) : Lineage :=
  { l with stack := l.stack.drop (l.stack.length - e.view.length) }

end Lineage

/-! ## What operations push -/

namespace Action

variable {e : Engine} {s args : Operands} {ins : Instruction} {action : Action} {c : Change}
  {u : Update}

/-- Whether pushed values may be references that await their constructor. -/
def carries : Action → Bool
  | .dup => true
  | .dupBelow => true
  | .dupWords _ _ => true
  | .swap => true
  | .cast => true
  | .load _ _ => true
  | .allocate => true
  | _ => false

theorem run_copy_push (h : action.run e ins args = .ok u)
    (haction : action = .dup ∨ action = .dupBelow) : u.push = args ++ args.take 1 := by
  rcases haction with rfl | rfl
  all_goals
    simp only [Action.run] at h
    split at h
    · cases h
      rfl
    · cases h

theorem run_swap_push (h : Action.run .swap e ins args = .ok u) : u.push = args.reverse := by
  simp only [Action.run] at h
  split at h
  · cases h
    rfl
  · cases h

theorem run_cast_push (h : Action.run .cast e ins args = .ok u) :
    ∃ sig, u.push = args.map (·.withSignature sig) := by
  simp only [Action.run] at h
  split at h
  · next op name =>
    split at h
    · cases h
    · split at h
      · cases h
        exact ⟨FieldType.ofClass name, rfl⟩
      · cases h
  · cases h

theorem run_load_push {kind : Text} {implied : Option Nat}
    (h : Action.run (.load kind implied) e ins args = .ok u) :
    ∃ slot, ins.slot? implied = some slot ∧ u.push = [e.loaded slot kind] := by
  simp only [Action.run] at h
  split at h
  · next slot hslot =>
    cases h
    exact ⟨slot, slot?_of_slotOf hslot, rfl⟩
  · cases h

theorem run_allocate (h : Action.run .allocate e ins args = .ok u) :
    0 < word64 (e.sites + 1) ∧ u.site = some (word64 (e.sites + 1)) ∧
      ∃ v, u.push = [v] ∧ v.site = word64 (e.sites + 1) := by
  simp only [Action.run] at h
  split at h
  · split at h
    · cases h
    · split at h
      · next v hv =>
        cases h
        simp only [Value.uninitialized?] at hv
        split at hv
        · next hpos =>
          cases hv
          exact ⟨hpos, rfl, _, rfl, rfl⟩
        · cases hv
      · cases h
  · cases h

theorem run_site_of_ne_allocate (h : action.run e ins args = .ok u) (hne : action ≠ .allocate) :
    u.site = none := by
  cases action
  case allocate => exact absurd rfl hne
  all_goals
    simp only [Action.run] at h
    repeat' split at h
    all_goals cases h
    all_goals rfl

def constantSite : Action → Int
  | .push v => v.site
  | _ => 0

theorem constantSite_eq_zero : ∀ o ∈ Operation.all, o.action.constantSite = 0 := by
  decide +kernel

/-- No other operation pushes a reference that awaits its constructor. -/
theorem run_push_settled (hperforms : ins.Performs action) (h : action.run e ins args = .ok u)
    (hcarries : action.carries = false) : ∀ v ∈ u.push, v.site = 0 := by
  cases action
  case push v =>
    obtain ⟨o, hop, -, haction⟩ := hperforms
    have hzero := constantSite_eq_zero o (List.mem_of_getElem? hop)
    rw [haction, constantSite] at hzero
    cases h
    simpa using hzero
  case pushLiteral =>
    simp only [Action.run] at h
    repeat' split at h
    all_goals cases h
    next literal _ =>
      simp only [List.mem_singleton, forall_eq]
      cases literal <;> rfl
  -- Of the operations that carry references nothing is left to show.
  all_goals cases hcarries
  all_goals
    simp only [Action.run] at h
    repeat' split at h
    all_goals cases h
    all_goals simp [Value.const, Value.typed, Value.address, Value.ofField]

/-- Only calls settle references, and they push none that others were copies of. -/
theorem Applies.settles_eq_none_of_carries (happly : action.Applies e s ins c)
    (hcarries : action.carries) : c.settles = none := by
  cases happly with
  | invoke => cases hcarries
  | _ => rfl

theorem Applies.settles_eq_none_of_store {implied : Option Nat} (happly : action.Applies e s ins c)
    (hperforms : ins.Performs action) (haction : ins.action? = some (.store implied)) :
    c.settles = none := by
  rw [hperforms.action?] at haction
  cases haction
  cases happly
  rfl

end Action

/-! ## Lineages and marks -/

namespace Lineage

/-- The mark of a value and the event it stems from are related. -/
def Marked (Q : Int → Option Nat → Prop) (v : Value) (origin : Option Nat) : Prop := Q v.site origin

/-- The marks of all values that an engine keeps are related to a lineage. -/
structure Agrees (l : Lineage) (e : Engine) (Q : Int → Option Nat → Prop) : Prop where
  stack : ∃ s, e.stack = some s ∧ List.Forall₂ (Marked Q) s l.stack
  slots : ∀ n v, e.recorded.get? n = some v → Q v.site (l.slots n)

theorem pushed_of_not_carries {ins : Instruction} {action : Action} (h : ins.Performs action)
    (hcarries : action.carries = false) (l : Lineage) (e : Engine) (i : Nat) (effect : Effect) :
    l.pushed e ins i effect = List.replicate effect.pushes.toNat none := by
  unfold pushed
  rw [h.action?]
  cases action <;> cases hcarries <;> rfl

section
variable {Q : Int → Option Nat → Prop} {e : Engine} {s : Operands} {ins : Instruction}
  {action : Action} {c : Change} {l : Lineage} {i : Nat}

theorem marked_mono {Q' : Int → Option Nat → Prop}
    (h : ∀ site origin, Q site origin → Q' site origin) {args : Operands}
    {origins : List (Option Nat)} (hargs : List.Forall₂ (Marked Q) args origins) :
    List.Forall₂ (Marked Q') args origins :=
  hargs.imp fun _ _ hmarked => h _ _ hmarked

theorem marked_replicate (hzero : ∀ origin, Q 0 origin) {push : Operands}
    (h : ∀ v ∈ push, v.site = 0) :
    List.Forall₂ (Marked Q) push (List.replicate push.length none) := by
  induction push with
  | nil => exact .nil
  | cons v push ih =>
      rw [List.forall_mem_cons] at h
      refine .cons ?_ (ih h.2)
      rw [Marked, h.1]
      exact hzero none

theorem marked_callResult (hzero : ∀ origin, Q 0 origin) (m : MethodDescriptor) :
    List.Forall₂ (Marked Q) (Action.callResult m)
      (List.replicate (Action.callResult m).length none) := by
  refine marked_replicate hzero ?_
  unfold Action.callResult
  split <;> simp [Value.typed]

/-- Copies are marked like what they are copies of. -/
theorem marked_copies {args : Operands} {origins : List (Option Nat)}
    (h : List.Forall₂ (Marked Q) args origins) (n : Nat) :
    List.Forall₂ (Marked Q) (args ++ args.take n) (origins ++ origins.take n) :=
  List.rel_append h (List.forall₂_take n h)

theorem marked_run_pushed {pops pushes : Nat} {u : Update} (hzero : ∀ origin, Q 0 origin)
    (hperforms : ins.Performs action) (hfixed : action.isDynamic = false)
    (hcounts : ins.opcode.counts? = some (pops, pushes))
    (hrun : action.run e ins (s.take pops) = .ok u)
    (hstack : List.Forall₂ (Marked Q) s l.stack)
    (hslots : ∀ n v, e.recorded.get? n = some v → Q v.site (l.slots n))
    (hfresh : ∀ site, u.site = some site → Q site (some i)) (hcarries : action.carries) :
    List.Forall₂ (Marked Q) u.push (l.pushed e ins i ⟨pops, pushes⟩) := by
  have htaken : List.Forall₂ (Marked Q) (s.take pops) (l.stack.take pops) :=
    List.forall₂_take pops hstack
  obtain rfl := hperforms.pushes_eq hfixed hcounts
  simp only [pushed, hperforms.action?]
  cases action
  case dup =>
    obtain rfl := hperforms.pops_eq hfixed hcounts rfl
    rw [Action.run_copy_push hrun (.inl rfl)]
    exact marked_copies htaken 1
  case dupBelow =>
    obtain rfl := hperforms.pops_eq hfixed hcounts rfl
    rw [Action.run_copy_push hrun (.inr rfl)]
    exact marked_copies htaken 1
  case swap =>
    obtain rfl := hperforms.pops_eq hfixed hcounts rfl
    rw [Action.run_swap_push hrun]
    exact List.rel_reverse htaken
  case cast =>
    obtain rfl := hperforms.pops_eq hfixed hcounts rfl
    obtain ⟨sig, hpush⟩ := Action.run_cast_push hrun
    rw [hpush, List.forall₂_map_left_iff]
    exact htaken
  case load kind implied =>
    obtain ⟨slot, hslot, hpush⟩ := Action.run_load_push hrun
    simp only [hpush, hslot, Option.bind_some]
    refine .cons ?_ .nil
    simp only [Marked, Engine.loaded]
    cases hv : e.recorded.get? slot with
    | some v => exact hslots slot v hv
    | none =>
        simp only [Option.bind_none]
        split <;> exact hzero none
  case allocate =>
    obtain ⟨-, hsite, v, hpush, hv⟩ := Action.run_allocate hrun
    rw [hpush]
    refine .cons ?_ .nil
    rw [Marked, hv]
    exact hfresh _ hsite
  case dupWords => cases hfixed
  all_goals cases hcarries

theorem marked_dupWords_pushed {top under n m : Nat}
    (hperforms : ins.Performs (.dupWords top under)) (hle : n + m ≤ s.length)
    (hstack : List.Forall₂ (Marked Q) s l.stack) :
    List.Forall₂ (Marked Q) (s.take n ++ ((s.drop n).take m ++ s.take n))
      (l.pushed e ins i
        ⟨(n + m : Nat), (s.take n ++ ((s.drop n).take m ++ s.take n)).length⟩) := by
  have hpush : s.take n ++ ((s.drop n).take m ++ s.take n) =
      s.take (n + m) ++ (s.take (n + m)).take n := by
    rw [List.take_take, Nat.min_eq_left (Nat.le_add_right n m), List.take_add, List.append_assoc]
  have hcount : ((s.take n ++ ((s.drop n).take m ++ s.take n)).length : Int) - (n + m : Nat) =
      n := by
    simp only [List.length_append, List.length_take, List.length_drop]
    omega
  simp only [pushed, hperforms.action?, hcount, Int.toNat_natCast]
  rw [hpush]
  exact marked_copies (List.forall₂_take (n + m) hstack) n

/-- Values that come from others are marked as their lineage tells if those were. -/
theorem marked_pushed_of_carries (hcarries : action.carries) (happly : action.Applies e s ins c)
    (hperforms : ins.Performs action) (hzero : ∀ origin, Q 0 origin)
    (hstack : List.Forall₂ (Marked Q) s l.stack)
    (hslots : ∀ n v, e.recorded.get? n = some v → Q v.site (l.slots n))
    (hfresh : ∀ site, c.update.site = some site → Q site (some i)) :
    List.Forall₂ (Marked Q) c.update.push
      (l.pushed e ins i ⟨c.taken, c.update.push.length⟩) := by
  have hle := happly.taken_le
  cases happly with
  | fixed hfixed hcounts _ hrun =>
      rw [Action.run_push_length hfixed hrun, ← hperforms.pushes_eq hfixed hcounts]
      exact marked_run_pushed hzero hperforms hfixed hcounts hrun hstack hslots hfresh hcarries
  | dupWords => exact marked_dupWords_pushed hperforms hle hstack
  | _ => cases hcarries

theorem marked_pushed_of_not_carries (hcarries : action.carries = false)
    (happly : action.Applies e s ins c) (hperforms : ins.Performs action)
    (hzero : ∀ origin, Q 0 origin) :
    List.Forall₂ (Marked Q) c.update.push
      (l.pushed e ins i ⟨c.taken, c.update.push.length⟩) := by
  rw [pushed_of_not_carries hperforms hcarries, Int.toNat_natCast]
  cases happly with
  | fixed _ _ _ hrun =>
      exact marked_replicate hzero (Action.run_push_settled hperforms hrun hcarries)
  | dropWords => exact .nil
  | dupWords => cases hcarries
  | invoke => exact marked_callResult hzero _
  | invokeDynamic => exact marked_callResult hzero _
  | newMultiArray => exact marked_replicate hzero (by simp [Value.typed])

theorem marked_settle {Q' : Int → Option Nat → Prop} {settles : Option Int}
    (hzero : ∀ origin, Q' 0 origin)
    (hkeep : ∀ site origin, settles ≠ some site → Q site origin → Q' site origin) {v : Value}
    {origin : Option Nat} (h : Q v.site origin) : Q' (v.settle settles).site origin := by
  unfold Value.settle
  split
  · exact hzero origin
  · next hne => exact hkeep _ _ hne h

variable {Q' : Int → Option Nat → Prop}

theorem Agrees.stored (h : l.Agrees e Q) (hready : e.Ready s) (hperforms : ins.Performs action)
    (happly : action.Applies e s ins c) (hzero : ∀ origin, Q' 0 origin)
    (hkeep : ∀ site origin, c.settles ≠ some site → Q site origin → Q' site origin) (n : Int)
    {v : Value} (hv : (e.advanced s c).recorded.get? n = some v) :
    Q' v.site ((if e.config.trackLocals then l.stored e ins else l.slots) n) := by
  -- What was recorded before stays where it is.
  have hsettled : ∀ w, (e.recorded.settle c.settles).get? n = some w → Q' w.site (l.slots n) := by
    intro w hw
    rw [Recorded.get?_settle] at hw
    obtain ⟨w', hw', rfl⟩ := Option.map_eq_some_iff.1 hw
    exact marked_settle hzero hkeep (h.slots n w' hw')
  have hrecord := happly.record_eq hperforms hready.view
  rw [Engine.advanced_recorded, hrecord] at hv
  cases hwrite : e.write? ins with
  | none =>
      simp only [hwrite] at hv
      simp only [Lineage.stored, hwrite, ite_self]
      exact hsettled v hv
  | some write =>
      obtain ⟨slot, w⟩ := write
      simp only [hwrite] at hv
      split
      · next htrack =>
        rw [if_pos htrack, Recorded.get?_store_eq_some_iff] at hv
        simp only [Lineage.stored, hwrite]
        rcases hv with ⟨rfl, rfl⟩ | ⟨hne, -, hv, -⟩
        · rw [if_pos rfl]
          rcases Engine.write?_cases hwrite with ⟨implied, rest, haction, hview⟩ | ⟨-, hsite⟩
          · have hnone := happly.settles_eq_none_of_store hperforms haction
            obtain ⟨s', hs', hstack⟩ := h.stack
            rw [hready.stack] at hs'
            cases hs'
            rw [← hready.view, hview] at hstack
            obtain ⟨origin, origins, hhead, -, hl⟩ := List.forall₂_cons_left_iff.1 hstack
            simp only [haction, hl, List.head?_cons, Option.join_some]
            exact hkeep _ _ (by simp [hnone]) hhead
          · rw [hsite]
            exact hzero _
        · rw [if_neg hne]
          exact hsettled v hv
      · next htrack =>
        rw [if_neg htrack] at hv
        exact hsettled v hv

theorem Agrees.instruction (h : l.Agrees e Q) (hready : e.Ready s)
    (hperforms : ins.Performs action) (happly : action.Applies e s ins c)
    (hzero : ∀ origin, Q' 0 origin)
    (hkeep : ∀ site origin, c.settles ≠ some site → Q site origin → Q' site origin)
    (hfresh : ∀ site, c.update.site = some site → Q' site (some i)) :
    (l.next e i (.instruction (some ins))).Agrees (e.advanced s c) Q' := by
  have heffect := happly.effect hperforms
  rw [← hready.view] at heffect
  simp only [Lineage.next, heffect, Int.toNat_natCast]
  obtain ⟨s', hs', hstack⟩ := h.stack
  rw [hready.stack] at hs'
  cases hs'
  refine ⟨⟨_, Engine.advanced_stack e s c, List.rel_append ?_ ?_⟩, ?_⟩
  · cases hcarries : action.carries with
    | false => exact marked_pushed_of_not_carries hcarries happly hperforms hzero
    | true =>
        have hnone := happly.settles_eq_none_of_carries hcarries
        have hcopy : ∀ site origin, Q site origin → Q' site origin := fun site origin =>
          hkeep site origin (by simp [hnone])
        exact marked_pushed_of_carries hcarries happly hperforms hzero
          (marked_mono hcopy hstack)
          (fun n v hv => hcopy _ _ (h.slots n v hv)) hfresh
  · rw [Operands.settle, List.forall₂_map_left_iff]
    exact (List.forall₂_drop c.taken hstack).imp fun v origin => marked_settle hzero hkeep
  · intro n v hv
    exact h.stored hready hperforms happly hzero hkeep n hv

theorem Agrees.label (h : l.Agrees e Q) (hkeep : ∀ site origin, Q site origin → Q' site origin)
    (name : Option Label) : (l.next e i (.label name)).Agrees { e with recorded := [] } Q' := by
  obtain ⟨s, hs, hstack⟩ := h.stack
  exact ⟨⟨s, hs, marked_mono hkeep hstack⟩, by simp⟩

theorem Agrees.marked_at (h : l.Agrees e Q) (hphase : e.phase = .inCode) {p : Place} {v : Value}
    (hv : e.at? p = some v) : Q v.site (l.at? p) := by
  cases p with
  | slot n => exact h.slots n v hv
  | entry depth =>
      obtain ⟨s, hs, hstack⟩ := h.stack
      rw [Engine.at?, Engine.view_of_stack hphase hs] at hv
      obtain ⟨hlt, hget⟩ := List.getElem?_eq_some_iff.1 hv
      have hlt' : depth < l.stack.length := hstack.length_eq ▸ hlt
      have horigin : l.at? (.entry depth) = l.stack.get ⟨depth, hlt'⟩ := by
        simp [Lineage.at?, List.getElem?_eq_getElem hlt']
      rw [horigin, ← hget]
      exact hstack.get hlt hlt'

end

end Lineage

end OperandStack
