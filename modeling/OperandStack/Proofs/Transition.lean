import OperandStack.Proofs.Body

/-!
# What an event can do

`Engine.Transition` lists all that an event can make of an engine, in a body or not, together with
the result. An invariant of engines is shown transition by transition, and `Engine.after_of_visit`
carries it through whole runs, also in front of another visitor.
-/

namespace OperandStack

namespace Engine

inductive Transition (e : Engine) : Event → Engine → Option Stop → Prop
  /-- Out of order, or after the fault that stopped the method. -/
  | refused {ev : Event} {f : Fault} : e.objection? ev = some f ∨ e.sticky = some f →
      Transition e ev e (some (.fault f))
  /-- No descriptor or no stack where there should be one. -/
  | missing {ev : Event} :
      e.phase = .inMethod ∧ e.sticky = none ∧ e.descriptor = none ∨
        e.phase = .inCode ∧ e.stack = none →
      Transition e ev e (some (.crash .missing))
  | declared {m : MethodInfo} {d : MethodDescriptor} : MethodDescriptor.parse m.descriptor = .ok d →
      Transition e (.method m)
        { config := e.config, sampler := e.sampler, phase := .inMethod, method := m,
          descriptor := some d } none
  | misdeclared {m : MethodInfo} {err : DescriptorError} :
      Transition e (.method m)
        { config := e.config, sampler := e.sampler, phase := .inMethod, method := m,
          sticky := some (.declaration m.name err) } (some (.fault (.declaration m.name err)))
  | named {name : Text} {access : Access} {d : MethodDescriptor} : e.phase = .inMethod →
      e.descriptor = some d → e.names.length ≠ d.params.length →
      Transition e (.parameter name access) { e with names := e.names ++ [name] } none
  | surplus {name : Text} {access : Access} : e.phase = .inMethod →
      Transition e (.parameter name access)
        { e with sticky := some (.surplusName e.method.toText name) }
        (some (.fault (.surplusName e.method.toText name)))
  | code {d : MethodDescriptor} {layout : LocalLayout} : e.phase = .inMethod →
      e.descriptor = some d →
      LocalLayout.ofMethod? e.method.access.isStatic d e.names = some layout →
      Transition e .code (e.began layout) none
  /-- Names that go with no layout. -/
  | unplaced {d : MethodDescriptor} : e.phase = .inMethod → e.descriptor = some d →
      LocalLayout.ofMethod? e.method.access.isStatic d e.names = none →
      Transition e .code { e with sticky := some .tooManyParameters }
        (some (.fault .tooManyParameters))
  | label {name : Option Label} : e.phase = .inCode →
      Transition e (.label name) { e with recorded := [] } none
  | applied {s : Operands} {ins : Instruction} {action : Action} {c : Change} :
      e.Ready s → ins.Performs action → action.Applies e s ins c →
      Transition e (.instruction (some ins)) (e.advanced s c) none
  | faulted {ins : Option Instruction} {f : Fault} : e.phase = .inCode →
      Instruction.Refusal ins f ∨ (∃ op u, f = .underflowAt op e.count u) →
      Transition e (.instruction ins) { e.counted with sticky := some f } (some (.fault f))
  | crashed {ins : Instruction} {n : Nat} {c : Crash} : e.phase = .inCode →
      e.stack = none ∨ (ins.isClosed → word64 (e.sites + 1) ≤ 0) →
      Transition e (.instruction (some ins)) { e.counted with stack := e.stack.map (List.drop n) }
        (some (.crash c))
  | finished {stack : Option Operands} : stack = none ∨ stack = e.stack →
      Transition e .finish { e with stack, phase := .unattached } (e.sticky.map .fault)

section
variable {e e' : Engine} {ev : Event} {result : Option Stop}

theorem transition_method (e : Engine) (m : MethodInfo) :
    e.Transition (.method m) (e.receiveMethod m).1 (e.receiveMethod m).2.result := by
  unfold receiveMethod declare
  split
  · exact .misdeclared
  · next hparse => exact .declared hparse

theorem transition_parameter (hphase : e.phase = .inMethod) (name : Text) (access : Access) :
    e.Transition (.parameter name access) (e.receiveParameter name).1
      (e.receiveParameter name).2.result := by
  unfold receiveParameter
  split
  · next hsticky => exact .refused (.inr hsticky)
  · next hsticky =>
    split
    · next hnone => exact .missing (.inl ⟨hphase, hsticky, hnone⟩)
    · next d hdesc =>
      split
      · exact .surplus hphase
      · next hroom => exact .named hphase hdesc hroom

theorem transition_code (hphase : e.phase = .inMethod) :
    e.Transition .code e.receiveCode.1 e.receiveCode.2.result := by
  unfold receiveCode
  split
  · next hsticky => exact .refused (.inr hsticky)
  · next hsticky =>
    split
    · next hnone => exact .missing (.inl ⟨hphase, hsticky, hnone⟩)
    · next d hdesc =>
      split
      · next hnone => exact .unplaced hphase hdesc hnone
      · next layout hlayout => exact .code hphase hdesc hlayout

theorem transition_label (hphase : e.phase = .inCode) (name : Option Label) :
    e.Transition (.label name) e.receiveLabel.1 e.receiveLabel.2.result := by
  unfold receiveLabel
  split
  · next hsticky => exact .refused (.inr hsticky)
  · exact .label hphase

/-- An instruction is applied to a stack, so an engine without one accepts none. -/
theorem transition_instruction (hphase : e.phase = .inCode) (ins : Option Instruction) :
    e.Transition (.instruction ins) (e.receiveInstruction ins).1
      (e.receiveInstruction ins).2.result := by
  rcases hsticky : e.sticky with _ | f
  · rw [receiveInstruction_eq hsticky]
    rcases hstack : e.stack with _ | s
    · obtain ⟨stop, hrefused, hsome, happly⟩ := exists_apply_of_no_stack e.count ins
      rw [happly e.counted hstack]
      cases stop with
      | fault f => exact .faulted hphase (.inl (hrefused f rfl))
      | crash c =>
          obtain ⟨ins, rfl⟩ := hsome c rfl
          have hkept : e.stack.map (List.drop 0) = e.stack := by simp [hstack]
          have hcrashed : e.Transition (.instruction (some ins))
              { e.counted with stack := e.stack.map (List.drop 0) } (some (.crash c)) :=
            .crashed hphase (.inl hstack)
          rw [hkept] at hcrashed
          exact hcrashed
    · have hout := apply_outcome (e := e.counted) hstack e.count ins
      generalize e.counted.apply e.count ins = r at hout
      cases hout with
      | @applied ins action c hperforms happly =>
          have hengine : ((e.counted.change s c).applied e.count (some ins)).1 = e.advanced s c :=
            applied_eq _ _ _
          change e.Transition _ (Engine.applied _ _ _).1 (Engine.applied _ _ _).2.result
          rw [hengine, applied_result]
          exact .applied ⟨hphase, hsticky, hstack⟩ hperforms (applies_of_counted happly)
      | lacking => exact .faulted hphase (.inr ⟨_, _, rfl⟩)
      | refused hrefused => exact .faulted hphase (.inl hrefused)
      | @crashed ins n c hsites =>
          have hcrashed : e.Transition (.instruction (some ins))
              { e.counted with stack := e.stack.map (List.drop n) } (some (.crash c)) :=
            .crashed hphase (.inr hsites)
          rwa [hstack] at hcrashed
  · have hsame : e.receiveInstruction ins = (e, .refuse f) := by
      simp only [receiveInstruction, hsticky]
    rw [hsame]
    exact .refused (.inr hsticky)

theorem transition_finish (e : Engine) :
    e.Transition .finish e.receiveFinish.1 e.receiveFinish.2.result := by
  unfold receiveFinish
  split
  · next hphase =>
    split
    · next hnone => exact .missing (.inr ⟨hphase, hnone⟩)
    · exact .finished (.inl rfl)
  · exact .finished (.inr rfl)

/-- There are no other transitions. -/
theorem visit_transition (e : Engine) (ev : Event) :
    e.Transition ev (e.visit ev).1 (e.visit ev).2.result := by
  rcases hobject : e.objection? ev with _ | f
  · rw [visit_eq_receive hobject]
    cases ev with
    | method m => exact e.transition_method m
    | parameter name access =>
        exact transition_parameter (by simpa [objection?] using hobject) name access
    | code => exact transition_code (by simpa [objection?] using hobject)
    | label name => exact transition_label (by simpa [objection?] using hobject) name
    | instruction ins => exact transition_instruction (by simpa [objection?] using hobject) ins
    | finish => exact e.transition_finish
  · simp only [visit, hobject]
    exact .refused (.inl hobject)

/-! ## What transitions keep -/

theorem Transition.config (h : e.Transition ev e' result) : e'.config = e.config := by
  cases h <;> rfl

/-- Between a declaration and its body there are names and faults only. -/
theorem Transition.inMethod (h : e.Transition ev e' result) (hphase : e'.phase = .inMethod) :
    (∃ m, ev = .method m) ∨
      e.phase = .inMethod ∧ ∃ names sticky, e' = { e with names, sticky } := by
  cases h with
  | declared => exact .inl ⟨_, rfl⟩
  | misdeclared => exact .inl ⟨_, rfl⟩
  | refused => exact .inr ⟨hphase, _, _, rfl⟩
  | missing => exact .inr ⟨hphase, _, _, rfl⟩
  | named hbefore => exact .inr ⟨hbefore, _, _, rfl⟩
  | surplus hbefore => exact .inr ⟨hbefore, _, _, rfl⟩
  | unplaced hbefore => exact .inr ⟨hbefore, _, _, rfl⟩
  | code => cases hphase
  | label hbefore => cases hbefore.symm.trans hphase
  | applied hready => cases hready.phase.symm.trans hphase
  | faulted hbefore => cases hbefore.symm.trans hphase
  | crashed hbefore => cases hbefore.symm.trans hphase
  | finished => cases hphase

theorem Transition.descriptor (h : e.Transition ev e' result) {d : MethodDescriptor}
    (hd : e'.descriptor = some d) :
    e.descriptor = some d ∨ ∃ desc, MethodDescriptor.parse desc = .ok d := by
  cases h with
  | declared hparse =>
      cases hd
      exact .inr ⟨_, hparse⟩
  | misdeclared => cases hd
  | _ => exact .inl hd

theorem Transition.locals (h : e.Transition ev e' result) {layout : LocalLayout}
    (hlayout : e'.locals = some layout) :
    e.locals = some layout ∨
      ∃ d static names, e.descriptor = some d ∧
        LocalLayout.ofMethod? static d names = some layout := by
  cases h with
  | declared => cases hlayout
  | misdeclared => cases hlayout
  | code _ hdesc hmade =>
      cases hlayout
      exact .inr ⟨_, _, _, hdesc, hmade⟩
  | _ => exact .inl hlayout

end

/-! ## Runs -/

/-- What every one of some events preserves holds after all of them. -/
theorem after_of_visit {σ : Type} {next : Option (Visitor σ)} {e : Engine} {t : σ}
    {evs : List Event} {P : Engine → Prop}
    (hstep : ∀ ev ∈ evs, ∀ e : Engine, P e → P (e.visit ev).1) (h : P e) :
    P ((frontOf next).after (e, t) evs).1 := by
  induction evs generalizing e t with
  | nil => exact h
  | cons ev evs ih =>
      have hnext : P (frontOf next (e, t) ev).1.1 := by
        rcases frontOf_cases next e t ev with ⟨hengine, -⟩ | ⟨hengine, -⟩
        · rw [hengine]
          exact hstep ev (by simp) e h
        · rw [hengine]
          exact h
      exact ih (fun ev hev => hstep ev (by simp [hev])) hnext

end Engine

end OperandStack
