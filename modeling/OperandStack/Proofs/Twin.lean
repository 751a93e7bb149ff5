import OperandStack.Proofs.Transition

/-!
# Engines that know the same

Of its configuration an engine looks at one thing when it applies an event, which is whether it
tracks local variables. The observers that are present decide on what it tells, and debugging on
what it logs. So engines that differ in their configurations and in their samplers only, and track
local variables both or neither, stay so whatever they are given and come to the same results
(`Engine.Twin.visit`). A declaration makes twins of any two engines that agree on tracking
(`Engine.twin_receiveMethod`).
-/

namespace OperandStack

namespace Engine

def refit (config : Config) (sampler : Sampler) (e : Engine) : Engine := { e with config, sampler }

section
variable (config : Config) (sampler : Sampler) (e : Engine)

@[simp] theorem refit_phase : (e.refit config sampler).phase = e.phase := rfl
@[simp] theorem refit_method : (e.refit config sampler).method = e.method := rfl
@[simp] theorem refit_descriptor : (e.refit config sampler).descriptor = e.descriptor := rfl
@[simp] theorem refit_names : (e.refit config sampler).names = e.names := rfl
@[simp] theorem refit_stack : (e.refit config sampler).stack = e.stack := rfl
@[simp] theorem refit_count : (e.refit config sampler).count = e.count := rfl
@[simp] theorem refit_sticky : (e.refit config sampler).sticky = e.sticky := rfl
@[simp] theorem refit_counted :
    (e.refit config sampler).counted = e.counted.refit config sampler := rfl

end

/-- Engines that are the same but for configurations and samplers, and agree on tracking. -/
structure Twin (e e' : Engine) : Prop where
  tracking : e'.config.trackLocals = e.config.trackLocals
  same : e' = e.refit e'.config e'.sampler

/-! ## Applying an instruction -/

section
variable {e : Engine} {config : Config}

theorem update_refit (h : config.trackLocals = e.config.trackLocals) (sampler : Sampler)
    (rest : Operands) (u : Update) :
    (e.refit config sampler).update rest u = (e.update rest u).refit config sampler := by
  simp only [update, refit, h]

theorem change_refit (h : config.trackLocals = e.config.trackLocals) (sampler : Sampler)
    (s : Operands) (c : Change) :
    (e.refit config sampler).change s c = (e.change s c).refit config sampler :=
  update_refit (e := { e with recorded := e.recorded.settle c.settles }) h sampler _ c.update

/-- Of the configuration, operations see nothing. -/
theorem operation_change_refit (config : Config) (sampler : Sampler) (e : Engine) (o : Operation)
    (ins : Instruction) (s : Operands) :
    o.change (e.refit config sampler) ins s = o.change e ins s := by
  have hrun (args : Operands) :
      o.action.run (e.refit config sampler) ins args = o.action.run e ins args :=
    Action.run_congr rfl rfl rfl o.action ins args
  simp only [Operation.change, hrun]

theorem apply_refit (h : config.trackLocals = e.config.trackLocals) (sampler : Sampler)
    (index : Nat) (ins : Option Instruction) :
    (e.refit config sampler).apply index ins =
      (e.apply index ins).map (refit config sampler) id := by
  cases hstack : e.stack with
  | none =>
      obtain ⟨stop, -, -, happly⟩ := exists_apply_of_no_stack index ins
      rw [happly e hstack, happly (e.refit config sampler) hstack]
      rfl
  | some s =>
      have hstack' : (e.refit config sampler).stack = some s := hstack
      cases ins with
      | none => rfl
      | some ins =>
          cases hop : ins.opcode.operation? with
          | none =>
              simp only [apply, hop]
              rfl
          | some o =>
              by_cases hform : ins.form = o.form
              · have hsame := operation_change_refit config sampler e o ins s
                rcases hchange : o.change e ins s with (f | c) | c <;> rw [hchange] at hsame
                · rw [apply_of_fault hstack hop hform index hchange,
                    apply_of_fault hstack' hop hform index hsame]
                  rfl
                · rw [apply_of_crash hstack hop hform index hchange,
                    apply_of_crash hstack' hop hform index hsame]
                  rfl
                · rw [apply_of_ok hstack hop hform index hchange,
                    apply_of_ok hstack' hop hform index hsame, change_refit h]
                  rfl
              · simp only [apply, hop, ne_eq, hform, not_false_eq_true, if_true]
                rfl

theorem apply_config (e : Engine) (index : Nat) (ins : Option Instruction) :
    (e.apply index ins).1.config = e.config := by
  cases hstack : e.stack with
  | some s =>
      have hout := apply_outcome hstack index ins
      generalize e.apply index ins = r at hout
      cases hout <;> rfl
  | none =>
      obtain ⟨stop, -, -, happly⟩ := exists_apply_of_no_stack index ins
      rw [happly e hstack]

end

/-! ## Visiting an event -/

/-- Both gave the same verdict, told the same if they have the same observers, and are twins. -/
structure TwinReplies (r r' : Engine × Reply) : Prop where
  twin : r.1.Twin r'.1
  result : r'.2.result = r.2.result
  hooks : r'.1.config.hooks = r.1.config.hooks → r'.2.hooks = r.2.hooks

section
variable {e : Engine} {config : Config} {sampler : Sampler}

theorem twin_refit (h : config.trackLocals = e.config.trackLocals) (sampler : Sampler) :
    e.Twin (e.refit config sampler) :=
  ⟨h, rfl⟩

theorem observe_congr {e' : Engine} (h : e'.config.hooks = e.config.hooks) (call : HookCall) :
    e'.observe call = e.observe call := by
  simp only [observe, h]

/-- What came before does not matter to a declaration. -/
theorem twin_receiveMethod {e e' : Engine} (h : e'.config.trackLocals = e.config.trackLocals)
    (m : MethodInfo) : TwinReplies (e.receiveMethod m) (e'.receiveMethod m) := by
  unfold receiveMethod declare
  cases MethodDescriptor.parse m.descriptor with
  | error err => exact ⟨⟨h, rfl⟩, rfl, fun hhooks => observe_congr hhooks _⟩
  | ok d => exact ⟨⟨h, rfl⟩, rfl, fun hhooks => observe_congr hhooks _⟩

theorem twin_receiveParameter (h : config.trackLocals = e.config.trackLocals) (name : Text) :
    TwinReplies (e.receiveParameter name) ((e.refit config sampler).receiveParameter name) := by
  unfold receiveParameter
  rw [refit_sticky, refit_descriptor, refit_names]
  split
  · exact ⟨twin_refit h sampler, rfl, fun _ => rfl⟩
  · split
    · exact ⟨twin_refit h sampler, rfl, fun _ => rfl⟩
    · split
      · exact ⟨⟨h, rfl⟩, rfl, fun _ => rfl⟩
      · exact ⟨⟨h, rfl⟩, rfl, fun _ => rfl⟩

theorem twin_receiveCode (h : config.trackLocals = e.config.trackLocals) :
    TwinReplies e.receiveCode (e.refit config sampler).receiveCode := by
  unfold receiveCode
  rw [refit_sticky, refit_descriptor, refit_method, refit_names]
  split
  · exact ⟨twin_refit h sampler, rfl, fun _ => rfl⟩
  · split
    · exact ⟨twin_refit h sampler, rfl, fun _ => rfl⟩
    · split
      · exact ⟨⟨h, rfl⟩, rfl, fun _ => rfl⟩
      · exact ⟨⟨h, rfl⟩, rfl, fun _ => rfl⟩

theorem twin_receiveLabel (h : config.trackLocals = e.config.trackLocals) :
    TwinReplies e.receiveLabel (e.refit config sampler).receiveLabel := by
  unfold receiveLabel
  rw [refit_sticky]
  split
  · exact ⟨twin_refit h sampler, rfl, fun _ => rfl⟩
  · exact ⟨⟨h, rfl⟩, rfl, fun _ => rfl⟩

theorem twin_applied (h : config.trackLocals = e.config.trackLocals) (index : Nat)
    (ins : Option Instruction) :
    TwinReplies (e.applied index ins) ((e.refit config sampler).applied index ins) := by
  refine ⟨?_, by rw [applied_result, applied_result], ?_⟩
  · rw [applied_eq, applied_eq]
    exact ⟨h, rfl⟩
  · rw [applied_hooks_eq, applied_hooks_eq, applied_eq, applied_eq]
    exact fun hsame => observe_congr hsame _

theorem twin_told {r : Engine × Option Stop} (h : config.trackLocals = r.1.config.trackLocals)
    (index : Nat) (ins : Option Instruction) :
    TwinReplies (told index ins r) (told index ins (r.map (refit config sampler) id)) := by
  obtain ⟨e, _ | f | c⟩ := r
  · exact twin_applied h index ins
  · exact ⟨⟨h, rfl⟩, rfl, fun hhooks => observe_congr hhooks _⟩
  · exact ⟨⟨h, rfl⟩, rfl, fun _ => rfl⟩

theorem twin_receiveInstruction (h : config.trackLocals = e.config.trackLocals)
    (ins : Option Instruction) :
    TwinReplies (e.receiveInstruction ins)
      ((e.refit config sampler).receiveInstruction ins) := by
  unfold receiveInstruction
  rw [refit_sticky, refit_count, refit_counted, apply_refit (e := e.counted) h]
  split
  · exact ⟨twin_refit h sampler, rfl, fun _ => rfl⟩
  · refine twin_told ?_ e.count ins
    rw [apply_config]
    exact h

theorem twin_receiveFinish (h : config.trackLocals = e.config.trackLocals) :
    TwinReplies e.receiveFinish (e.refit config sampler).receiveFinish := by
  unfold receiveFinish
  rw [refit_phase, refit_stack]
  split
  · split
    · exact ⟨twin_refit h sampler, rfl, fun _ => rfl⟩
    · exact ⟨⟨h, rfl⟩, rfl, fun hhooks => observe_congr hhooks _⟩
  · exact ⟨⟨h, rfl⟩, rfl, fun _ => rfl⟩

end

section
variable {e e' : Engine}

theorem Twin.objection? (h : e.Twin e') (ev : Event) : e'.objection? ev = e.objection? ev := by
  rw [h.same]
  cases ev <;> rfl

theorem Twin.receive (h : e.Twin e') (ev : Event) : TwinReplies (e.receive ev) (e'.receive ev) := by
  rw [h.same]
  cases ev with
  | method m => exact twin_receiveMethod h.tracking m
  | parameter name access => exact twin_receiveParameter h.tracking name
  | code => exact twin_receiveCode h.tracking
  | label name => exact twin_receiveLabel h.tracking
  | instruction ins => exact twin_receiveInstruction h.tracking ins
  | finish => exact twin_receiveFinish h.tracking

/-- Twins stay twins and come to the same results. -/
theorem Twin.visit (h : e.Twin e') (ev : Event) : TwinReplies (e.visit ev) (e'.visit ev) := by
  unfold Engine.visit
  rw [h.objection? ev]
  cases e.objection? ev with
  | some f => exact ⟨h, rfl, fun _ => rfl⟩
  | none => exact h.receive ev

end

end Engine

end OperandStack
