import OperandStack.Proofs.Body

/-!
# Entries under a stack

Code that gets along with the entries it finds on a stack does the same on a stack with more
entries under them, and leaves those alone. The one thing that reaches them is a constructor
call: it settles all references of an allocation, wherever they lie.
-/

namespace OperandStack

namespace Value

/-- The value once the constructors of some allocations have run. -/
def settleAll (sites : List Int) (v : Value) : Value :=
  if v.site ∈ sites then v.initialized else v

@[simp] theorem settleAll_nil (v : Value) : v.settleAll [] = v := rfl

theorem settle_eq_settleAll (site : Option Int) (v : Value) :
    v.settle site = v.settleAll site.toList := by
  cases site with
  | none => rfl
  | some site => simp [settle_some, settleAll]

/-- A reference stays settled, so it does not matter when its constructor has run. -/
theorem settleAll_append (sites more : List Int) (v : Value) :
    v.settleAll (sites ++ more) = (v.settleAll sites).settleAll more := by
  by_cases hmem : v.site ∈ sites
  · have hsettled : v.settleAll sites = v.initialized := if_pos hmem
    rw [hsettled]
    simp only [settleAll, List.mem_append, hmem, true_or, if_true]
    split
    · rfl
    · rfl
  · simp [settleAll, hmem]

end Value

namespace Engine

def constructs? (e : Engine) : Event → Option Int
  | .instruction (some ins) => ins.constructs? e.view
  | _ => none

/-- The allocations whose constructors are called in the course of accepted events. -/
def constructed {σ : Type} (next : Option (Visitor σ)) : Engine × σ → List Event → List Int
  | _, [] => []
  | st, ev :: evs => (st.1.constructs? ev).toList ++ constructed next (frontOf next st ev).1 evs

def above (e : Engine) (under : Operands) : Engine :=
  { e with stack := e.stack.map (· ++ under) }

section
variable {e e' : Engine} {s : Operands} {ev : Event} {c : Change}

theorem Ready.above (h : e.Ready s) (under : Operands) : (e.above under).Ready (s ++ under) :=
  ⟨h.phase, h.sticky, by simp [Engine.above, h.stack]⟩

theorem advanced_above (hle : c.taken ≤ s.length) (under : Operands) :
    (e.above under).advanced (s ++ under) c =
      (e.advanced s c).above (Operands.settle c.settles under) := by
  simp only [advanced, change, update, List.drop_append_of_le_length hle, Operands.settle,
    List.map_append, ← List.append_assoc]
  rfl

/-- One element of a body: what lies under the stack is settled and nothing else. -/
theorem Advance.above (h : e.Advance s ev e') (hready : e.Ready s) (under : Operands) :
    (e.above under).Advance (s ++ under) ev
      (e'.above (under.map (Value.settle (e.constructs? ev)))) := by
  cases h with
  | label =>
      have hsame : under.map (Value.settle none) = under := Operands.settle_none under
      simp only [constructs?, hsame]
      exact .label
  | @instruction ins action c hperforms happly =>
      have hsites : c.settles = e.constructs? (.instruction (some ins)) := by
        rw [happly.settles_eq hperforms, constructs?, hready.view]
      have happly' : action.Applies (e.above under) (s ++ under) ins c :=
        happly.append (e.above under) rfl rfl rfl under
      rw [← hsites, ← Operands.settle, ← advanced_above happly.taken_le]
      exact .instruction hperforms happly'

end

section
variable {σ : Type} {next : Option (Visitor σ)}

/-- A whole run, by induction on its elements; each of them settles what lies under the stack a
little further. -/
theorem after_above {evs : List Event} (hevs : ∀ ev ∈ evs, ev.isElement) {e : Engine} {t : σ}
    {s : Operands} (hready : e.Ready s) (hrun : (frontOf next).AcceptsAll (e, t) evs)
    (under : Operands) :
    (frontOf next).AcceptsAll (e.above under, t) evs ∧
      (frontOf next).after (e.above under, t) evs =
        (((frontOf next).after (e, t) evs).1.above
            (under.map (Value.settleAll (constructed next (e, t) evs))),
          ((frontOf next).after (e, t) evs).2) ∧
      ∃ s', ((frontOf next).after (e, t) evs).1.Ready s' := by
  induction evs generalizing e t s under with
  | nil =>
      have hsame : under.map (Value.settleAll []) = under := List.map_id'' Value.settleAll_nil under
      refine ⟨by simp [Visitor.AcceptsAll, Visitor.replies], ?_, s, hready⟩
      simp only [Visitor.after_nil, constructed, hsame]
  | cons ev evs ih =>
      rw [List.forall_mem_cons] at hevs
      obtain ⟨haccepted, hrest⟩ := (Visitor.acceptsAll_cons _ _ _ _).1 hrun
      obtain ⟨hvisit, hpasses⟩ := frontOf_accepted_iff.1 haccepted
      have hadvance := hready.advance hevs.1 hvisit
      obtain ⟨hvisit', hengine'⟩ := (hadvance.above hready under).visit (hready.above under)
      have haccepted' : (frontOf next (e.above under, t) ev).2.result = none :=
        frontOf_accepted_iff.2 ⟨hvisit', hpasses⟩
      obtain ⟨s', hready'⟩ := hadvance.ready hready
      rw [frontOf_accepted haccepted] at hrest
      obtain ⟨hall, hafter, hlast⟩ :=
        ih hevs.2 hready' hrest (under.map (Value.settle (e.constructs? ev)))
      have hmap : under.map (Value.settleAll (constructed next (e, t) (ev :: evs))) =
          (under.map (Value.settle (e.constructs? ev))).map
            (Value.settleAll (constructed next ((e.visit ev).1, passOn next t ev) evs)) := by
        rw [List.map_map]
        refine List.map_congr_left fun v _ => ?_
        rw [constructed, frontOf_accepted haccepted, Value.settleAll_append,
          Function.comp_apply, Value.settle_eq_settleAll]
      rw [Visitor.acceptsAll_cons, Visitor.after_cons, Visitor.after_cons,
        frontOf_accepted haccepted', frontOf_accepted haccepted, hengine', hmap]
      exact ⟨⟨haccepted', hall⟩, hafter, hlast⟩

end

/-- Code that runs on a stack runs on a stack with more entries under it. It does all the same and
leaves those entries as they were, but for the references to allocations that it constructs. -/
theorem accepted_over_entries {σ : Type} (next : Option (Visitor σ)) (t : σ) (e : Engine)
    (s under : Operands) (evs : List Event) (hphase : e.phase = .inCode)
    (hsticky : e.sticky = none) (hstack : e.stack = some s) (hevs : ∀ ev ∈ evs, ev.isElement)
    (hrun : (frontOf next).AcceptsAll (e, t) evs) :
    ∃ s', ((frontOf next).after (e, t) evs).1.stack = some s' ∧
      (frontOf next).AcceptsAll ({ e with stack := some (s ++ under) }, t) evs ∧
      (frontOf next).after ({ e with stack := some (s ++ under) }, t) evs =
        ({ ((frontOf next).after (e, t) evs).1 with
            stack := some (s' ++ under.map fun v =>
              if v.site ∈ constructed next (e, t) evs then v.initialized else v) },
          ((frontOf next).after (e, t) evs).2) := by
  have hready : e.Ready s := ⟨hphase, hsticky, hstack⟩
  obtain ⟨hall, hafter, s', hready'⟩ := after_above hevs hready hrun under
  have habove : e.above under = { e with stack := some (s ++ under) } := by
    simp only [above, hstack, Option.map_some]
  rw [habove] at hall hafter
  refine ⟨s', hready'.stack, hall, ?_⟩
  rw [hafter, above, hready'.stack]
  rfl

def holdingArgument : Engine :=
  { holdingFresh with stack := some [.typed FieldType.int, ⟨"LA;", none, none, false, 1⟩] }

/-- Constructs the reference, then allocates another one and copies it. -/
def constructAndAllocate : List Event :=
  [.instruction (some (.method .invokespecial "A" "<init>" "(I)V" false)), .label none,
    .instruction (some (.type .new "B")), .instruction (some (.plain ⟨0x59⟩))]

/-- Of the entries underneath, the other copy of the reference is settled. The one whose number
the second allocation takes was never constructed. -/
theorem accepted_over_entries_references :
    (frontOf (some Recorder.visit)).AcceptsAll (holdingArgument, {}) constructAndAllocate ∧
      ∃ s', ((frontOf (some Recorder.visit)).after (holdingArgument, {})
          constructAndAllocate).1.stack = some s' ∧
        ((frontOf (some Recorder.visit)).after
            ({ holdingArgument with
              stack := some ([.typed FieldType.int, ⟨"LA;", none, none, false, 1⟩] ++
                [⟨"LA;", none, none, false, 1⟩, .typed FieldType.long,
                  ⟨"LB;", none, none, false, 2⟩]) }, {}) constructAndAllocate).1.stack =
          some (s' ++ [.typed "LA;", .typed FieldType.long, ⟨"LB;", none, none, false, 2⟩]) := by
  have hrun : (frontOf (some Recorder.visit)).AcceptsAll (holdingArgument, {})
      constructAndAllocate := by decide +kernel
  have hsites : constructed (some Recorder.visit) (holdingArgument, {}) constructAndAllocate =
      [1] := by decide +kernel
  obtain ⟨s', hstack, -, hafter⟩ := accepted_over_entries (some Recorder.visit) {} holdingArgument
    [.typed FieldType.int, ⟨"LA;", none, none, false, 1⟩]
    [⟨"LA;", none, none, false, 1⟩, .typed FieldType.long, ⟨"LB;", none, none, false, 2⟩]
    constructAndAllocate rfl rfl rfl (by decide) hrun
  refine ⟨hrun, s', hstack, ?_⟩
  rw [hafter, hsites]
  rfl

end Engine

end OperandStack
