import OperandStack.Proofs.Forwarding
import OperandStack.Proofs.StackEffect

/-!
# Inside a method body

An engine may have a visitor behind it; `Engine.frontOf` is an engine with or without one. The
visitor behind decides whether an event gets to the engine and nothing else, so a run in front of
it comes down to visits of the engine alone.

In a body an event is accepted if it is a label, or an instruction whose operation applies to the
stack. `Engine.Advance` tells what the engine is then, and `Engine.Ready.visit_element_iff` says
that these are all the accepted elements of a body. Every fact about whole bodies is derived from
its two directions by induction on the elements.
-/

namespace OperandStack

namespace Engine

/-! ## Engines with or without a visitor behind them -/

section
variable {σ : Type}

def frontOf (next : Option (Visitor σ)) : Visitor (Engine × σ) := fun (e, t) ev =>
  match next with
  | none => (((e.visit ev).1, t), (e.visit ev).2)
  | some visit => behind visit (e, t) ev

/-- The visitor behind, if there is one, accepts the event. -/
def Passes (next : Option (Visitor σ)) (t : σ) (ev : Event) : Prop :=
  ∀ visit ∈ next, (visit t ev).2.result = none

/-- The state of the visitor behind once it has been given the event. -/
def passOn (next : Option (Visitor σ)) (t : σ) (ev : Event) : σ :=
  match next with
  | none => t
  | some visit => (visit t ev).1

variable {next : Option (Visitor σ)} {e : Engine} {t : σ} {ev : Event}

/-- The engine takes the event as it would alone, or does not get to it. -/
theorem frontOf_cases (next : Option (Visitor σ)) (e : Engine) (t : σ) (ev : Event) :
    (frontOf next (e, t) ev).1.1 = (e.visit ev).1 ∧
        (frontOf next (e, t) ev).2.result = (e.visit ev).2.result ∨
      (frontOf next (e, t) ev).1.1 = e ∧ (frontOf next (e, t) ev).2.result ≠ none := by
  cases next with
  | none => exact .inl ⟨rfl, rfl⟩
  | some visit =>
      simp only [frontOf, behind, relay, Engine.visit]
      cases hobject : e.objection? ev with
      | some f => exact .inl ⟨rfl, rfl⟩
      | none =>
          cases hresult : (visit t ev).2.result with
          | some stop =>
              refine .inr ⟨rfl, ?_⟩
              simp [Reply.below, hresult]
          | none => exact .inl ⟨rfl, rfl⟩

theorem frontOf_of_objection {f : Fault} (h : e.objection? ev = some f) :
    frontOf next (e, t) ev = ((e, t), .refuse f) := by
  cases next <;> simp only [frontOf, behind, relay, Engine.visit, h]

theorem frontOf_accepted_iff :
    (frontOf next (e, t) ev).2.result = none ↔
      (e.visit ev).2.result = none ∧ Passes next t ev := by
  cases next with
  | none => simp [frontOf, Passes]
  | some visit =>
      simp only [frontOf, behind, relay, Engine.visit, Passes, Option.mem_def, Option.some.injEq,
        forall_eq']
      cases hobject : e.objection? ev with
      | some f => simp [Reply.refuse]
      | none =>
          cases hresult : (visit t ev).2.result with
          | some stop => simp [Reply.below, hresult]
          | none => simp [Reply.followedBy]

theorem frontOf_accepted (h : (frontOf next (e, t) ev).2.result = none) :
    (frontOf next (e, t) ev).1 = ((e.visit ev).1, passOn next t ev) := by
  have hpass := (frontOf_accepted_iff.1 h).2
  cases next with
  | none => rfl
  | some visit =>
      have hvisit := hpass visit rfl
      simp only [frontOf, behind, relay, Engine.visit, passOn] at h ⊢
      cases hobject : e.objection? ev with
      | some f => simp [hobject, Reply.refuse] at h
      | none => simp only [hvisit]

end

end Engine

/-! ## Constructor calls -/

/-- The allocation whose constructor a call runs: that of the receiver, which lies under the
arguments, where it still awaits its constructor. -/
def Instruction.constructs? (ins : Instruction) (s : Operands) : Option Int :=
  match ins with
  | .method op _ name desc _ =>
      match MethodDescriptor.parse desc with
      | .ok m => Action.settled? op name s[m.params.length]?
      | .error _ => none
  | _ => none

theorem Operation.action_of_form_method :
    ∀ o ∈ Operation.all, o.form = .method → o.action = .invoke := by
  decide +kernel

namespace Instruction

variable {ins : Instruction} {action : Action}

theorem Performs.eq_invoke (h : ins.Performs action) (hform : ins.form = .method) :
    action = .invoke := by
  obtain ⟨o, hop, ho, rfl⟩ := h
  exact Operation.action_of_form_method o (List.mem_of_getElem? hop) (ho ▸ hform)

theorem constructs?_of_form_ne {s : Operands} (hform : ins.form ≠ .method) :
    ins.constructs? s = none := by
  cases ins with
  | method => exact absurd rfl hform
  | _ => rfl

end Instruction

theorem Action.Applies.settles_eq {e : Engine} {s : Operands} {ins : Instruction} {action : Action}
    {c : Change} (happly : action.Applies e s ins c) (h : ins.Performs action) :
    c.settles = ins.constructs? s := by
  by_cases hform : ins.form = .method
  · obtain rfl := h.eq_invoke hform
    cases happly with
    | fixed hfixed => cases hfixed
    | invoke hparse hle =>
        simp only [Instruction.constructs?, hparse]
        exact Action.settled?_take _ _ _ _
  · rw [Instruction.constructs?_of_form_ne hform]
    cases happly with
    | invoke => exact absurd rfl hform
    | _ => rfl

/-! ## What an operation depends on -/

theorem Operands.countWords?_append {s : Operands} {skip n k : Nat} (hskip : skip ≤ s.length)
    (h : s.countWords? skip n = some k) (under : Operands) :
    countWords? (s ++ under) skip n = some k := by
  have go : ∀ (t : Operands) (n k : Nat), countWords?.go n t = some k →
      countWords?.go n (t ++ under) = some k := by
    intro t
    induction t with
    | nil =>
        intro n k h
        cases n with
        | zero => simpa [countWords?.go] using h
        | succ n => cases h
    | cons v t ih =>
        intro n k h
        cases n with
        | zero => simpa [countWords?.go] using h
        | succ n =>
            obtain ⟨j, hj, rfl⟩ := Option.map_eq_some_iff.1 h
            simp [countWords?.go, ih _ _ hj]
  rw [countWords?, List.drop_append_of_le_length hskip]
  exact go _ _ _ h

namespace Action

variable {e : Engine} {s : Operands} {ins : Instruction} {action : Action} {c : Change}

/-- An operation that applies to a stack makes the same change on a stack with more entries under
it. -/
theorem Applies.append (happly : action.Applies e s ins c) (e' : Engine)
    (hrecorded : e'.recorded = e.recorded) (hlocals : e'.locals = e.locals)
    (hsites : e'.sites = e.sites) (under : Operands) : action.Applies e' (s ++ under) ins c := by
  have hle := happly.taken_le
  have hle' : c.taken ≤ (s ++ under).length := Nat.le_trans hle (by simp)
  cases happly with
  | fixed hfixed hcounts _ hrun =>
      refine .fixed hfixed hcounts hle' ?_
      rw [List.take_append_of_le_length hle, run_congr hrecorded hlocals hsites]
      exact hrun
  | dropWords hn => exact .dropWords (Operands.countWords?_append (Nat.zero_le _) hn under)
  | @dupWords _ top below n m hn hm =>
      have hcopied : n ≤ s.length := Nat.le_of_add_right_le hle
      have happly : Applies e' (s ++ under) (.dupWords top below) ins _ :=
        .dupWords (Operands.countWords?_append (Nat.zero_le _) hn under)
          (Operands.countWords?_append hcopied hm under)
      have hpassed : m ≤ (s.drop n).length := by
        rw [List.length_drop]
        exact Nat.le_sub_of_add_le' hle
      rwa [List.take_append_of_le_length hcopied, List.drop_append_of_le_length hcopied,
        List.take_append_of_le_length hpassed] at happly
  | @invoke op owner name desc interface m hparse _ =>
      have happly : Applies e' (s ++ under) .invoke (.method op owner name desc interface) _ :=
        .invoke hparse hle'
      rwa [List.take_append_of_le_length hle] at happly
  | invokeDynamic hparse _ => exact .invokeDynamic hparse hle'
  | newMultiArray hvalid hpos hdims _ => exact .newMultiArray hvalid hpos hdims hle'

theorem Applies.congr (happly : action.Applies e s ins c) (e' : Engine)
    (hrecorded : e'.recorded = e.recorded) (hlocals : e'.locals = e.locals)
    (hsites : e'.sites = e.sites) : action.Applies e' s ins c := by
  have happly := happly.append e' hrecorded hlocals hsites []
  rwa [List.append_nil] at happly

end Action

namespace Engine

/-! ## Accepted elements -/

structure Ready (e : Engine) (s : Operands) : Prop where
  phase : e.phase = .inCode
  sticky : e.sticky = none
  stack : e.stack = some s

def nextSampler (e : Engine) : Sampler :=
  if e.config.debugging then e.sampler.check.2 else e.sampler

theorem applied_eq (e : Engine) (index : Nat) (ins : Option Instruction) :
    (e.applied index ins).1 = { e with sampler := e.nextSampler } := by
  unfold applied nextSampler
  split <;> rfl

theorem applied_hooks_eq (e : Engine) (index : Nat) (ins : Option Instruction) :
    (e.applied index ins).2.hooks = e.observe (.opcode index ins e.view) := by
  unfold applied
  split <;> rfl

/-- The engine once an instruction has made its change. -/
def advanced (e : Engine) (s : Operands) (c : Change) : Engine :=
  { e.counted.change s c with sampler := e.nextSampler }

theorem advanced_stack (e : Engine) (s : Operands) (c : Change) :
    (e.advanced s c).stack = some (c.update.push ++ Operands.settle c.settles (s.drop c.taken)) :=
  rfl

theorem advanced_recorded (e : Engine) (s : Operands) (c : Change) :
    (e.advanced s c).recorded = match c.update.record with
      | some (slot, v) =>
          if e.config.trackLocals then (e.recorded.settle c.settles).store slot v
          else e.recorded.settle c.settles
      | none => e.recorded.settle c.settles :=
  rfl

/-- What an engine with a given stack is after an element of a body that it accepts. -/
inductive Advance (e : Engine) (s : Operands) : Event → Engine → Prop
  | label {name : Option Label} : Advance e s (.label name) { e with recorded := [] }
  | instruction {ins : Instruction} {action : Action} {c : Change} :
      ins.Performs action → action.Applies e s ins c →
      Advance e s (.instruction (some ins)) (e.advanced s c)

section
variable {e : Engine} {s : Operands} {ins : Instruction} {action : Action} {c : Change}

theorem change_of_applies {o : Operation} (hop : ins.opcode.operation? = some o)
    (haction : o.action = action) (happly : action.Applies e s ins c) :
    o.change e ins s = .ok c := by
  have hdynamic : action.isDynamic = true → o.change e ins s = action.changeOf ins s := by
    rw [← haction]
    intro h
    simp only [Operation.change,
      (Operation.counts_eq_none_iff o (List.mem_of_getElem? hop)).2 h]
  cases happly with
  | fixed hfixed hcounts hle hrun =>
      rw [Opcode.counts?, hop, Option.bind_some] at hcounts
      simp only [Operation.change, hcounts, if_pos hle, haction, hrun, Except.map]
  | dropWords hn => simp only [hdynamic rfl, Action.changeOf, hn]
  | dupWords hn hm => simp only [hdynamic rfl, Action.changeOf, hn, hm]
  | invoke hparse hle =>
      simp only [hdynamic rfl, Action.changeOf, Action.call, hparse, Action.settled?_take]
      exact if_pos hle
  | invokeDynamic hparse hle =>
      simp only [hdynamic rfl, Action.changeOf, Action.callSite, hparse]
      exact if_pos hle
  | @newMultiArray desc dims hvalid hpos hdims hle =>
      have hrange : (decide ((dims : Int) < 1) ||
          decide ((FieldType.dimensions desc : Int) < dims)) = false := by
        simp only [Bool.or_eq_false_iff, decide_eq_false_iff_not]
        omega
      simp only [hdynamic rfl, Action.changeOf, hvalid, hrange, Int.toNat_natCast,
        Bool.false_eq_true, if_false]
      exact if_pos hle

theorem apply_of_applies (hstack : e.stack = some s) (h : ins.Performs action)
    (happly : action.Applies e s ins c) (index : Nat) :
    e.apply index (some ins) = (e.change s c, none) := by
  obtain ⟨o, hop, hform, rfl⟩ := h
  exact apply_of_ok hstack hop hform index (change_of_applies hop rfl happly)

end

/-- A load is applied and pushes what is known of its slot. -/
theorem exists_advance_of_load {ins : Instruction} {kind : Text} {implied : Option Nat} {slot : Int}
    (hperforms : ins.Performs (.load kind implied)) (hslot : slotOf ins implied = .ok slot)
    (e : Engine) (s : Operands) :
    ∃ e', e.Advance s (.instruction (some ins)) e' ∧ e'.stack = some (e.loaded slot kind :: s) := by
  have hrun : Action.run (.load kind implied) e ins (s.take 0) =
      .ok { push := [e.loaded slot kind] } := by
    simp only [Action.run, hslot]
  obtain ⟨pops, hcounts, hpops⟩ := hperforms.counts rfl
  obtain rfl := hpops 0 rfl
  refine ⟨_, .instruction hperforms (.fixed rfl hcounts (Nat.zero_le _) hrun), ?_⟩
  rw [advanced_stack, Operands.settle_none, List.drop_zero, List.singleton_append]

def began (e : Engine) (layout : LocalLayout) : Engine :=
  { e with locals := some layout, stack := some [], recorded := [], phase := .inCode }

/-- A body that begins has the layout of the declared parameters and nothing on its stack. -/
theorem visit_code_accepted {e : Engine} (h : (e.visit .code).2.result = none) :
    ∃ d layout, e.descriptor = some d ∧
      LocalLayout.ofMethod? e.method.access.isStatic d e.names = some layout ∧
      e.phase = .inMethod ∧ (e.began layout).Ready [] ∧ (e.visit .code).1 = e.began layout := by
  by_cases hphase : e.phase = .inMethod
  · have hobject : e.objection? .code = none := by simp [objection?, hphase]
    have hvisit : e.visit .code = e.receiveCode := visit_eq_receive hobject
    rw [hvisit] at h ⊢
    rcases hsticky : e.sticky with _ | f
    · rcases hdesc : e.descriptor with _ | d
      · simp [receiveCode, hsticky, hdesc, Reply.crash] at h
      · rcases hlayout : LocalLayout.ofMethod? e.method.access.isStatic d e.names with _ | layout
        · simp [receiveCode, hsticky, hdesc, hlayout, Reply.refuse] at h
        · have hbegan : e.receiveCode.1 = e.began layout := by
            simp only [receiveCode, hsticky, hdesc, hlayout, began]
          exact ⟨d, layout, rfl, hlayout, hphase, ⟨rfl, hsticky, rfl⟩, hbegan⟩
    · simp [receiveCode, hsticky, Reply.refuse] at h
  · simp [Engine.visit, objection?, hphase, Reply.refuse] at h

section
variable {e e' : Engine} {s : Operands} {ev : Event}

theorem view_of_stack (hphase : e.phase = .inCode) (hstack : e.stack = some s) : e.view = s := by
  simp [view, hphase, hstack]

theorem Ready.view (h : e.Ready s) : e.view = s := view_of_stack h.phase h.stack

theorem Advance.visit (h : e.Advance s ev e') (hready : e.Ready s) :
    (e.visit ev).2.result = none ∧ (e.visit ev).1 = e' := by
  cases h with
  | label =>
      simp [Engine.visit, objection?, receive, receiveLabel, hready.phase, hready.sticky,
        Reply.accepted]
  | @instruction ins action c hperforms happly =>
      rw [visit_eq_receive (objection?_instruction hready.phase _), receive,
        receiveInstruction_eq hready.sticky,
        apply_of_applies (e := e.counted) hready.stack hperforms
          (happly.congr e.counted rfl rfl rfl)]
      exact ⟨applied_result _ _ _, applied_eq _ _ _⟩

theorem Advance.ready (h : e.Advance s ev e') (hready : e.Ready s) : ∃ s', e'.Ready s' := by
  cases h with
  | label => exact ⟨s, hready.phase, hready.sticky, hready.stack⟩
  | instruction => exact ⟨_, hready.phase, hready.sticky, rfl⟩

/-- The accepted elements of a body are those that get the engine on. -/
theorem Ready.advance (hready : e.Ready s) (hev : ev.isElement)
    (h : (e.visit ev).2.result = none) : e.Advance s ev (e.visit ev).1 := by
  cases ev with
  | label name =>
      have hadvance : e.Advance s (.label name) { e with recorded := [] } := .label
      rwa [← (hadvance.visit hready).2] at hadvance
  | instruction ins =>
      cases ins with
      | none =>
          rw [visit_eq_receive (objection?_instruction hready.phase _), receive,
            receiveInstruction_eq hready.sticky] at h
          cases h
      | some ins =>
          obtain ⟨action, c, hperforms, happly, -⟩ :=
            visit_instruction_applies hready.phase hready.sticky hready.stack h
          have hadvance : e.Advance s (.instruction (some ins)) _ := .instruction hperforms happly
          rwa [← (hadvance.visit hready).2] at hadvance
  | _ => cases hev

theorem Ready.visit_element_iff (hready : e.Ready s) (hev : ev.isElement) :
    (e.visit ev).2.result = none ∧ (e.visit ev).1 = e' ↔ e.Advance s ev e' := by
  constructor
  · rintro ⟨haccepted, rfl⟩
    exact hready.advance hev haccepted
  · intro h
    exact h.visit hready

end

/-! ## Events in a body -/

/-- The engine has lost entries from the top of its stack at most. -/
structure Remains (e e' : Engine) : Prop where
  stack : ∃ n, e'.stack = e.stack.map (List.drop n)
  recorded : e'.recorded = e.recorded
  sites : e'.sites = e.sites

section
variable {e : Engine}

theorem Remains.refl (e : Engine) : e.Remains e := ⟨⟨0, by cases e.stack <;> rfl⟩, rfl, rfl⟩

theorem Running.remains (h : e.Running) {ins : Option Instruction}
    (hresult : (e.receiveInstruction ins).2.result ≠ none) :
    e.Remains (e.receiveInstruction ins).1 := by
  rcases hsticky : e.sticky with _ | f
  · obtain ⟨s, hs⟩ := h.stack
    have hout := apply_outcome (e := e.counted) hs e.count ins
    rw [receiveInstruction_eq hsticky] at hresult ⊢
    split at hresult
    · exact absurd (applied_result _ _ _) hresult
    · next happly =>
      obtain rfl := eq_of_apply_fault happly
      exact ⟨(Remains.refl e).stack, rfl, rfl⟩
    · next happly =>
      rw [happly] at hout
      cases hout with
      | @crashed _ n _ _ => exact ⟨⟨n, by simp [hs]⟩, rfl, rfl⟩
  · simp only [receiveInstruction, hsticky]
    exact .refl e

theorem Running.ready (h : e.Running) {ev : Event} (hev : ev.isElement)
    (haccepted : (e.visit ev).2.result = none) : ∃ s, e.Ready s := by
  obtain ⟨s, hs⟩ := h.stack
  refine ⟨s, h.phase, ?_, hs⟩
  rcases hsticky : e.sticky with _ | f
  · rfl
  · cases ev with
    | instruction ins =>
        simp [visit, objection?, receive, receiveInstruction, h.phase, hsticky, Reply.refuse]
          at haccepted
    | label name =>
        simp [visit, objection?, receive, receiveLabel, h.phase, hsticky, Reply.refuse] at haccepted
    | _ => cases hev

/-- As long as the engine stays in the body, an event gets it on or leaves its values alone. -/
theorem Running.visit_cases (h : e.Running) {ev : Event} (hphase : (e.visit ev).1.phase = .inCode) :
    (e.visit ev).2.result = none ∧ (∃ s, e.Ready s ∧ e.Advance s ev (e.visit ev).1) ∨
      (e.visit ev).2.result ≠ none ∧ e.Remains (e.visit ev).1 := by
  have hadvance (hev : ev.isElement) (haccepted : (e.visit ev).2.result = none) :
      ∃ s, e.Ready s ∧ e.Advance s ev (e.visit ev).1 := by
    obtain ⟨s, hready⟩ := h.ready hev haccepted
    exact ⟨s, hready, hready.advance hev haccepted⟩
  cases ev with
  | method m => cases hphase.symm.trans (receiveMethod_declares e m).phase
  | finish =>
      rw [visit_eq_receive (by simp [objection?, h.phase])] at hphase
      cases hphase.symm.trans h.finish
  | parameter name access =>
      have hrefused : e.visit (.parameter name access) =
          (e, .refuse (.unexpected .parameter e.phase)) := by
        simp [visit, objection?, h.phase]
      rw [hrefused]
      exact .inr ⟨by simp [Reply.refuse], .refl e⟩
  | code =>
      have hrefused : e.visit .code = (e, .refuse (.unexpected .code e.phase)) := by
        simp [visit, objection?, h.phase]
      rw [hrefused]
      exact .inr ⟨by simp [Reply.refuse], .refl e⟩
  | label name =>
      by_cases haccepted : (e.visit (.label name)).2.result = none
      · exact .inl ⟨haccepted, hadvance rfl haccepted⟩
      · refine .inr ⟨haccepted, ?_⟩
        rw [visit_eq_receive (by simp [objection?, h.phase])] at haccepted ⊢
        simp only [receive, receiveLabel] at haccepted ⊢
        split
        · exact .refl e
        · next hsticky => simp [hsticky, Reply.accepted] at haccepted
  | instruction ins =>
      by_cases haccepted : (e.visit (.instruction ins)).2.result = none
      · exact .inl ⟨haccepted, hadvance rfl haccepted⟩
      · refine .inr ⟨haccepted, ?_⟩
        rw [visit_eq_receive (objection?_instruction h.phase ins)] at haccepted ⊢
        exact h.remains haccepted

theorem Running.advance_of_accepted {σ : Type} {next : Option (Visitor σ)} {t : σ} {ev : Event}
    (h : e.Running) (hev : ev.isElement) (haccepted : (frontOf next (e, t) ev).2.result = none) :
    ∃ s, e.Ready s ∧ e.Advance s ev (frontOf next (e, t) ev).1.1 := by
  have hvisit := (frontOf_accepted_iff.1 haccepted).1
  obtain ⟨s, hready⟩ := h.ready hev hvisit
  rw [frontOf_accepted haccepted]
  exact ⟨s, hready, hready.advance hev hvisit⟩

/-- The same in front of another visitor, which may keep the event from the engine. -/
theorem Running.frontOf_cases {σ : Type} {next : Option (Visitor σ)} {t : σ} {ev : Event}
    (h : e.Running) (hphase : (frontOf next (e, t) ev).1.1.phase = .inCode) :
    (frontOf next (e, t) ev).2.result = none ∧
        (∃ s, e.Ready s ∧ e.Advance s ev (frontOf next (e, t) ev).1.1) ∨
      (frontOf next (e, t) ev).2.result ≠ none ∧ e.Remains (frontOf next (e, t) ev).1.1 := by
  rcases Engine.frontOf_cases next e t ev with ⟨hengine, hresult⟩ | ⟨hengine, hresult⟩
  · rw [hengine] at hphase ⊢
    rw [hresult]
    exact h.visit_cases hphase
  · rw [hengine]
    exact .inr ⟨hresult, .refl e⟩

end

section
variable {σ : Type}

def StaysInCode (next : Option (Visitor σ)) : Engine × σ → List Event → Prop
  | _, [] => True
  | st, ev :: evs =>
      (frontOf next st ev).1.1.phase = .inCode ∧ StaysInCode next (frontOf next st ev).1 evs

instance (next : Option (Visitor σ)) :
    (st : Engine × σ) → (evs : List Event) → Decidable (StaysInCode next st evs)
  | _, [] => inferInstanceAs (Decidable True)
  | st, ev :: evs =>
      have := instDecidableStaysInCode next (frontOf next st ev).1 evs
      inferInstanceAs (Decidable ((frontOf next st ev).1.1.phase = .inCode ∧
        StaysInCode next (frontOf next st ev).1 evs))

end

end Engine

end OperandStack
