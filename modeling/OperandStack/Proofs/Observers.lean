import OperandStack.Engine.Replay
import OperandStack.Proofs.Body

/-!
# What observers are told

Observers hear of a method, of each instruction that is applied, of the fault that stops a method
and of the end of a body. `Report` is what they are told of one method and `Report.calls` is the
order in which they are told. An event adds one call to a report at most (`Report.Grows`). The
engine itself keeps no report, but its phase, its count and the fault that stopped it say all
that matters of it (`Engine.Reports`), so that the order is kept from event to event.
-/

namespace OperandStack

/-- What observers are told of a method: the instructions that were applied, each with the stack
after it, the one that was not, and the stack and the returned value at the end. -/
structure Report where
  applied : List (Option Instruction × Operands) := []
  fault : Option (Option Instruction × Operands × Fault) := none
  ended : Option (Operands × Option Value) := none

namespace Report

def calls (report : Report) (m : MethodInfo) : List HookCall :=
  .method m :: (report.applied.mapIdx fun i p => .opcode i p.1 p.2) ++
    (report.fault.map fun p => .fault report.applied.length p.1 p.2.1 p.2.2).toList ++
    (report.ended.map fun p => .codeEnd m p.1 p.2).toList

end Report

def Event.applied (ev : Event) (reply : Reply) : List (Option Instruction) :=
  match ev with
  | .instruction ins => if reply.result.isNone then [ins] else []
  | _ => []

def Reply.crashed (reply : Reply) : Bool :=
  match reply.result with
  | some (.crash _) => true
  | _ => false

namespace Report

/-- What an event and its reply add to the report of a method. -/
inductive Grows (m : MethodInfo) (report : Report) : Event → Reply → Report → Prop
  | silent {ev : Event} {reply : Reply} :
      reply.hooks = [] → ev.applied reply = [] → Grows m report ev reply report
  | opcode {ins : Option Instruction} {reply : Reply} {s : Operands} :
      report.fault = none → report.ended = none → reply.result = none →
      reply.hooks = [(0, .opcode report.applied.length ins s)] →
      Grows m report (.instruction ins) reply
        { report with applied := report.applied ++ [(ins, s)] }
  | fault {ins : Option Instruction} {reply : Reply} {s : Operands} {f : Fault} :
      report.fault = none → report.ended = none → reply.result = some (.fault f) →
      reply.hooks = [(0, .fault report.applied.length ins s f)] →
      Grows m report (.instruction ins) reply { report with fault := some (ins, s, f) }
  | codeEnd {reply : Reply} {s : Operands} {returned : Option Value} :
      report.ended = none → reply.hooks = [(0, .codeEnd m s returned)] →
      Grows m report .finish reply { report with ended := some (s, returned) }

section
variable {m : MethodInfo} {report report' : Report} {ev : Event} {reply : Reply}

theorem Grows.calls (h : report.Grows m ev reply report') :
    report'.calls m = report.calls m ++ reply.hooks.map (·.2) := by
  cases h with
  | silent hhooks => simp [hhooks]
  | opcode hfault hended _ hhooks =>
      simp [Report.calls, hfault, hended, hhooks, List.mapIdx_concat]
  | fault hfault hended _ hhooks => simp [Report.calls, hfault, hended, hhooks]
  | codeEnd hended hhooks => simp [Report.calls, hended, hhooks]

theorem Grows.applied (h : report.Grows m ev reply report') :
    report'.applied.map (·.1) = report.applied.map (·.1) ++ ev.applied reply := by
  cases h with
  | silent _ happlied => simp [happlied]
  | opcode _ _ hresult => simp [Event.applied, hresult]
  | fault _ _ hresult => simp [Event.applied, hresult]
  | codeEnd => simp [Event.applied]

/-- The fault that is told of is the one that is returned. -/
theorem Grows.result_of_fault (h : report.Grows m ev reply report') {index : Nat}
    {ins : Option Instruction} {s : Operands} {f : Fault}
    (hmem : .fault index ins s f ∈ reply.hooks.map (·.2)) : reply.result = some (.fault f) := by
  cases h with
  | silent hhooks => simp [hhooks] at hmem
  | opcode _ _ _ hhooks => simp [hhooks] at hmem
  | fault _ _ hresult hhooks =>
      simp only [hhooks, List.map_cons, List.map_nil, List.mem_singleton,
        HookCall.fault.injEq] at hmem
      rw [hresult, hmem.2.2.2]
  | codeEnd _ hhooks => simp [hhooks] at hmem

theorem fault_of_mem_calls {index : Nat} {ins : Option Instruction} {s : Operands} {f : Fault}
    (h : .fault index ins s f ∈ report.calls m) : report.fault = some (ins, s, f) := by
  simp only [calls, List.cons_append, List.mem_cons, reduceCtorEq, List.mem_append,
    List.mem_mapIdx, Option.mem_toList, Option.map_eq_some_iff, exists_false, false_or, and_false,
    or_false, HookCall.fault.injEq] at h
  obtain ⟨⟨ins', s', f'⟩, hfault, -, rfl, rfl, rfl⟩ := h
  exact hfault

end

end Report

namespace Engine

/-- The engine is in the method that the report is about. -/
structure Reports (m : MethodInfo) (report : Report) (e : Engine) : Prop where
  hooks : e.config.hooks = .all
  method : e.method = m
  count : e.count = report.applied.length + (if report.fault.isSome then 1 else 0)
  /-- Up to the body there is only the declaration to tell of. -/
  declared : e.phase = .inMethod →
    report = {} ∧ (e.sticky = none → ∃ d, e.descriptor = some d)
  coded : e.phase = .inCode →
    report.ended = none ∧ e.sticky = report.fault.map (·.2.2) ∧ ∃ s, e.stack = some s

section
variable {m : MethodInfo} {report : Report} {e : Engine}

theorem observe_of_all (h : e.config.hooks = .all) (call : HookCall) :
    e.observe call = [(0, call)] := by
  cases call <;> simp [observe, h, Hooks.wants, Hooks.all]

theorem reports_receiveMethod (h : e.config.hooks = .all) (m : MethodInfo) :
    Reports m {} (e.receiveMethod m).1 ∧ (e.receiveMethod m).2.hooks = [(0, .method m)] ∧
      (e.receiveMethod m).2.crashed = false := by
  have hobserve := observe_of_all h (.method m)
  unfold receiveMethod declare
  split
  · exact ⟨⟨h, rfl, rfl, fun _ => ⟨rfl, nofun⟩, nofun⟩, hobserve, rfl⟩
  · exact ⟨⟨h, rfl, rfl, fun _ => ⟨rfl, fun _ => ⟨_, rfl⟩⟩, nofun⟩, hobserve, rfl⟩

theorem Reports.running (h : Reports m report e) (hphase : e.phase = .inCode) : e.Running :=
  ⟨hphase, (h.coded hphase).2.2⟩

/-- What comes of an event: the report grows, or the engine crashes at an instruction. -/
def Told (m : MethodInfo) (report : Report) (ev : Event) (r : Engine × Reply) : Prop :=
  (∃ report', report.Grows m ev r.2 report' ∧ Reports m report' r.1 ∧ r.2.crashed = false) ∨
    r.2.crashed = true ∧ r.2.hooks = [] ∧ ev.applied r.2 = [] ∧ report.fault = none ∧
      r.1.count = report.applied.length + 1

theorem Reports.silent {ev : Event} {r : Engine × Reply} (h : Reports m report r.1)
    (hhooks : r.2.hooks = []) (happlied : ev.applied r.2 = []) (hcrashed : r.2.crashed = false) :
    Told m report ev r :=
  .inl ⟨report, .silent hhooks happlied, h, hcrashed⟩

theorem Reports.told_parameter (h : Reports m report e) (hphase : e.phase = .inMethod) (name : Text)
    (access : Access) : Told m report (.parameter name access) (e.receiveParameter name) := by
  obtain ⟨rfl, hdesc⟩ := h.declared hphase
  have hcoded : e.phase ≠ .inCode := by simp [hphase]
  unfold receiveParameter
  split
  · exact h.silent rfl rfl rfl
  · next hsticky =>
    split
    · next hnone =>
      obtain ⟨d, hd⟩ := hdesc hsticky
      cases hnone.symm.trans hd
    · split
      · refine Reports.silent ?_ rfl rfl rfl
        exact ⟨h.hooks, h.method, h.count, fun _ => ⟨rfl, nofun⟩, fun hp => absurd hp hcoded⟩
      · refine Reports.silent ?_ rfl rfl rfl
        exact ⟨h.hooks, h.method, h.count, h.declared, fun hp => absurd hp hcoded⟩

theorem Reports.told_code (h : Reports m report e) (hphase : e.phase = .inMethod) :
    Told m report .code e.receiveCode := by
  obtain ⟨rfl, hdesc⟩ := h.declared hphase
  unfold receiveCode
  split
  · exact h.silent rfl rfl rfl
  · next hsticky =>
    split
    · next hnone =>
      obtain ⟨d, hd⟩ := hdesc hsticky
      cases hnone.symm.trans hd
    · split
      · refine Reports.silent ?_ rfl rfl rfl
        exact ⟨h.hooks, h.method, h.count, fun _ => ⟨rfl, nofun⟩,
          fun hp => by cases hphase.symm.trans hp⟩
      · refine Reports.silent ?_ rfl rfl rfl
        exact ⟨h.hooks, h.method, h.count, nofun, fun _ => ⟨rfl, hsticky, [], rfl⟩⟩

theorem Reports.told_label (h : Reports m report e) (name : Option Label) :
    Told m report (.label name) e.receiveLabel := by
  unfold receiveLabel
  split
  · exact h.silent rfl rfl rfl
  · refine Reports.silent ?_ rfl rfl rfl
    exact ⟨h.hooks, h.method, h.count, h.declared, h.coded⟩

theorem applied_hooks (h : e.config.hooks = .all) (index : Nat) (ins : Option Instruction) :
    (e.applied index ins).2.hooks = [(0, .opcode index ins e.view)] := by
  rw [← observe_of_all h]
  unfold applied
  split <;> rfl

theorem apply_counted {e' : Engine} {s : Operands} {ins : Option Instruction} {stop : Option Stop}
    (hstack : e.stack = some s) (happly : e.counted.apply e.count ins = (e', stop)) :
    e'.config = e.config ∧ e'.method = e.method ∧ e'.phase = e.phase ∧ e'.sticky = e.sticky ∧
      e'.count = e.count + 1 := by
  have hout := apply_outcome (e := e.counted) hstack e.count ins
  rw [happly] at hout
  cases hout <;> exact ⟨rfl, rfl, rfl, rfl, rfl⟩

/-- An instruction is applied, found at fault or not looked at any more. -/
theorem Reports.told_instruction (h : Reports m report e) (hphase : e.phase = .inCode)
    (ins : Option Instruction) : Told m report (.instruction ins) (e.receiveInstruction ins) := by
  obtain ⟨hended, hfault, s, hstack⟩ := h.coded hphase
  rcases hsticky : e.sticky with _ | f
  · have hnone : report.fault = none := by simpa [hsticky] using hfault.symm
    have hcount : e.count = report.applied.length := by simpa [hnone] using h.count
    have hrunning := (h.running hphase).instruction ins
    rw [receiveInstruction_eq hsticky] at hrunning ⊢
    rcases happly : e.counted.apply e.count ins with ⟨e', stop⟩
    rw [happly] at hrunning
    obtain ⟨hconfig, hmethod, hphase', hsticky', hcount'⟩ := apply_counted hstack happly
    have hdeclared : e'.phase ≠ .inMethod := by simp [hphase', hphase]
    rcases stop with _ | f | c
    · have hhooks : e'.config.hooks = .all := hconfig ▸ h.hooks
      have hcall := applied_hooks hhooks e.count ins
      refine .inl ⟨_, .opcode hnone hended (applied_result _ _ _)
        (hcall.trans (by rw [hcount])), ?_, ?_⟩
      · change Reports m _ (e'.applied e.count ins).1
        rw [applied_eq] at hrunning ⊢
        exact ⟨hhooks, hmethod.trans h.method, by simp [hcount', hcount, hnone],
          fun hp => absurd hp hdeclared, fun _ => ⟨hended, hsticky'.trans hfault, hrunning.stack⟩⟩
      · simp [Reply.crashed]
    · obtain rfl := eq_of_apply_fault happly
      have hcall : e.counted.observe (.fault e.count ins e.counted.view f) = _ :=
        observe_of_all h.hooks _
      refine .inl ⟨_, .fault hnone hended rfl (hcall.trans (by rw [hcount])), ?_, rfl⟩
      exact ⟨h.hooks, h.method, by simp [faulted, hcount', hcount], fun hp => absurd hp hdeclared,
        fun _ => ⟨hended, rfl, s, hstack⟩⟩
    · exact .inr ⟨rfl, rfl, rfl, hnone, by rw [hcount', hcount]⟩
  · have hsame : e.receiveInstruction ins = (e, .refuse f) := by
      simp only [receiveInstruction, hsticky]
    rw [hsame]
    exact h.silent rfl rfl rfl

theorem Reports.told_finish (h : Reports m report e) : Told m report .finish e.receiveFinish := by
  unfold receiveFinish
  split
  · next hphase =>
    obtain ⟨hended, hfault, s, hs⟩ := h.coded hphase
    have hcrashed : Reply.crashed { result := e.sticky.map Stop.fault } = false := by
      cases e.sticky <;> rfl
    split
    · next hnone => cases hnone.symm.trans hs
    · refine .inl ⟨_, .codeEnd hended ((observe_of_all h.hooks _).trans (by rw [h.method])), ?_,
        hcrashed⟩
      exact ⟨h.hooks, h.method, h.count, nofun, nofun⟩
  · refine Reports.silent ?_ rfl rfl ?_
    · exact ⟨h.hooks, h.method, h.count, nofun, nofun⟩
    · cases e.sticky <;> rfl

theorem Reports.told (h : Reports m report e) {ev : Event} (hev : ∀ m', ev ≠ .method m') :
    Told m report ev (e.visit ev) := by
  rcases hobject : e.objection? ev with _ | f
  · rw [visit_eq_receive hobject]
    cases ev with
    | method m' => exact absurd rfl (hev m')
    | parameter name access =>
        exact h.told_parameter (by simpa [objection?] using hobject) name access
    | code => exact h.told_code (by simpa [objection?] using hobject)
    | label name => exact h.told_label name
    | instruction ins => exact h.told_instruction (by simpa [objection?] using hobject) ins
    | finish => exact h.told_finish
  · have hsame : e.visit ev = (e, .refuse f) := by simp only [visit, hobject]
    rw [hsame]
    refine h.silent rfl ?_ rfl
    cases ev <;> rfl

end

end Engine

/-! ## Runs -/

section
variable {σ : Type} {visit : Visitor σ} {st : σ} {ev : Event}

theorem deliver_of_crashed (h : (visit st ev).2.crashed) (rest : List (Option Event)) :
    deliver visit false st (some ev :: rest) = ((visit st ev).1, [(visit st ev).2]) := by
  unfold Reply.crashed at h
  split at h
  · next hresult => simp only [deliver, hresult]
  · cases h

theorem deliver_of_not_crashed (h : (visit st ev).2.crashed = false) (rest : List (Option Event)) :
    deliver visit false st (some ev :: rest) =
      ((deliver visit false (visit st ev).1 rest).1,
        (visit st ev).2 :: (deliver visit false (visit st ev).1 rest).2) := by
  rcases hresult : (visit st ev).2.result with _ | f | c
  · simp only [deliver, hresult]
  · simp [deliver, hresult]
  · simp [Reply.crashed, hresult] at h

end

def observed (replies : List Reply) : List HookCall := (replies.flatMap (·.hooks)).map (·.2)

def appliedAmong (evs : List Event) (replies : List Reply) : List (Option Instruction) :=
  (evs.zip replies).flatMap fun p => p.1.applied p.2

namespace Engine

/-- A run that makes up a report, if the calls `told` have come before and the instructions `done`
have been applied. -/
structure Completes (m : MethodInfo) (told : List HookCall) (done : List (Option Instruction))
    (evs : List Event) (run : Engine × List Reply) (report : Report) : Prop where
  calls : report.calls m = told ++ observed run.2
  applied : report.applied.map (·.1) = done ++ appliedAmong evs run.2
  faults : ∀ reply ∈ run.2, ∀ index ins s f, .fault index ins s f ∈ reply.hooks.map (·.2) →
    reply.result = some (.fault f)
  engine : run.2.any Reply.crashed = false ∧ Reports m report run.1 ∨
    run.2.any Reply.crashed = true ∧ report.fault = none ∧ run.1.count = report.applied.length + 1

section
variable {m : MethodInfo} {told : List HookCall} {done : List (Option Instruction)}
  {report : Report} {e : Engine} {ev : Event} {evs : List Event}

theorem Completes.cons (hcrashed : (e.visit ev).2.crashed = false)
    (h : Completes m (told ++ (e.visit ev).2.hooks.map (·.2)) (done ++ ev.applied (e.visit ev).2)
      evs (deliver visit false (e.visit ev).1 (evs.map some)) report)
    (hfaults : ∀ index ins s f, .fault index ins s f ∈ (e.visit ev).2.hooks.map (·.2) →
      (e.visit ev).2.result = some (.fault f)) :
    Completes m told done (ev :: evs) (deliver visit false e ((ev :: evs).map some)) report := by
  rw [List.map_cons, deliver_of_not_crashed hcrashed]
  refine ⟨?_, ?_, List.forall_mem_cons.2 ⟨hfaults, h.faults⟩, ?_⟩
  · rw [h.calls]
    simp [observed]
  · rw [h.applied]
    simp [appliedAmong]
  · simpa [hcrashed] using h.engine

/-- The events up to the next declaration, by induction on them. -/
theorem Reports.deliver (h : Reports m report e) (hevs : ∀ ev ∈ evs, ∀ m', ev ≠ .method m') :
    ∃ report', Completes m (report.calls m) (report.applied.map (·.1)) evs
      (deliver visit false e (evs.map some)) report' := by
  induction evs generalizing e report with
  | nil =>
      refine ⟨report, ?_, ?_, ?_, .inl ⟨rfl, h⟩⟩ <;>
        simp [OperandStack.deliver, observed, appliedAmong]
  | cons ev evs ih =>
      rcases h.told (hevs ev (by simp)) with ⟨grown, hgrows, hgrown, hcrashed⟩ | hcrash
      · obtain ⟨report', hrest⟩ := ih hgrown fun ev hev => hevs ev (by simp [hev])
        rw [hgrows.calls, hgrows.applied] at hrest
        exact ⟨report', hrest.cons hcrashed fun index ins s f hmem => hgrows.result_of_fault hmem⟩
      · obtain ⟨hcrashed, hhooks, happlied, hfault, hcount⟩ := hcrash
        rw [List.map_cons, deliver_of_crashed hcrashed]
        refine ⟨report, ?_, ?_, ?_, .inr ⟨?_, hfault, hcount⟩⟩
        · simp [observed, hhooks]
        · simp [appliedAmong, happlied]
        · simp [hhooks]
        · simp [hcrashed]

theorem exists_completes (hhooks : e.config.hooks = .all) (m : MethodInfo)
    (hevs : ∀ ev ∈ evs, ∀ m', ev ≠ .method m') :
    ∃ report, Completes m [] [] (.method m :: evs)
      (deliver visit false e ((Event.method m :: evs).map some)) report := by
  obtain ⟨hreports, hmethod, hcrashed⟩ := reports_receiveMethod hhooks m
  obtain ⟨report, hrest⟩ := hreports.deliver hevs
  have hcalls : (e.visit (.method m)).2.hooks.map (·.2) = [.method m] := by
    rw [visit_method, hmethod]
    rfl
  refine ⟨report, Completes.cons hcrashed ?_ ?_⟩
  · rw [hcalls]
    exact hrest
  · simp [hcalls]

theorem Completes.exists_reply {run : Engine × List Reply}
    (h : Completes m told done evs run report) {index : Nat} {ins : Option Instruction}
    {s : Operands} {f : Fault}
    (hmem : .fault index ins s f ∈ observed run.2) :
    ∃ reply ∈ run.2, .fault index ins s f ∈ reply.hooks.map (·.2) ∧
      reply.result = some (.fault f) := by
  simp only [observed, List.map_flatMap, List.mem_flatMap] at hmem
  obtain ⟨reply, hreply, hcall⟩ := hmem
  exact ⟨reply, hreply, hcall, h.faults reply hreply index ins s f hcall⟩

theorem Completes.count {run : Engine × List Reply} (h : Completes m told done evs run report) :
    run.1.count = report.applied.length +
      (if report.fault.isSome || run.2.any Reply.crashed then 1 else 0) := by
  rcases h.engine with ⟨hcrashed, hreports⟩ | ⟨hcrashed, -, hcount⟩
  · rw [hcrashed, Bool.or_false]
    exact hreports.count
  · rw [hcrashed, Bool.or_true, if_pos rfl]
    exact hcount

theorem visit_element_of_sticky {f : Fault} (hphase : e.phase = .inCode)
    (hsticky : e.sticky = some f) (hev : ev.isElement) :
    e.visit ev = (e, .refuse f) := by
  cases ev with
  | instruction ins => simp [visit, objection?, receive, receiveInstruction, hphase, hsticky]
  | label name => simp [visit, objection?, receive, receiveLabel, hphase, hsticky]
  | _ => cases hev

theorem Running.visit_finish (h : e.Running) :
    (e.visit .finish).2.result = e.sticky.map .fault ∧
      (e.visit .finish).1.phase = .unattached := by
  obtain ⟨s, hs⟩ := h.stack
  simp [visit, objection?, receive, receiveFinish, h.phase, hs]

end

/-! ## Main results -/

/-- From one declaration to the next, observers are told of the method, then of each instruction
that is applied, under the numbers from 0 on, then of a fault at most once, under the next number,
and last of the end of the body at most once. The count of instructions is the number of those that
were applied, and one more after a fault or a crash. A fault is returned where it is told of, and
as long as the engine stays in the body, all further instructions and labels return it and change
nothing, and the end of the body returns it and leaves the method. -/
theorem observers_are_told_in_order (e : Engine) (hhooks : e.config.hooks = .all) (m : MethodInfo)
    (evs : List Event) (hevs : ∀ ev ∈ evs, ∀ m', ev ≠ .method m') :
    let run := deliver visit false e ((Event.method m :: evs).map some)
    ∃ report : Report,
      observed run.2 = report.calls m ∧
      report.applied.map (·.1) = appliedAmong (.method m :: evs) run.2 ∧
      run.1.count = report.applied.length +
        (if report.fault.isSome || run.2.any Reply.crashed then 1 else 0) ∧
      ∀ index ins s f, .fault index ins s f ∈ observed run.2 →
        (∃ reply ∈ run.2, .fault index ins s f ∈ reply.hooks.map (·.2) ∧
          reply.result = some (.fault f)) ∧
        (run.1.phase = .inCode →
          (∀ ev, ev.isElement → run.1.visit ev = (run.1, .refuse f)) ∧
          (run.1.visit .finish).2.result = some (.fault f) ∧
          (run.1.visit .finish).1.phase = .unattached) := by
  intro run
  obtain ⟨report, h⟩ := exists_completes hhooks m hevs
  have hcalls : observed run.2 = report.calls m := h.calls.symm
  refine ⟨report, hcalls, h.applied, h.count, ?_⟩
  intro index ins s f hmem
  refine ⟨h.exists_reply hmem, ?_⟩
  intro hphase
  have hfault : report.fault = some (ins, s, f) := Report.fault_of_mem_calls (hcalls ▸ hmem)
  rcases h.engine with ⟨-, hreports⟩ | ⟨-, hnone, -⟩
  · have hsticky : run.1.sticky = some f := by
      rw [(hreports.coded hphase).2.1, hfault]
      rfl
    obtain ⟨hresult, hleft⟩ := (hreports.running hphase).visit_finish
    rw [hsticky] at hresult
    exact ⟨fun ev hev => visit_element_of_sticky hphase hsticky hev, hresult, hleft⟩
  · cases hnone.symm.trans hfault

/-- Names its parameter, begins its code twice, and pops once too often in the midst of it. -/
def popsTooOften : List Event :=
  [.parameter "x" .empty, .code, .instruction (some (.plain ⟨0x04⟩)), .code,
    .instruction (some (.plain ⟨0x57⟩)), .label none, .instruction (some (.plain ⟨0x57⟩)),
    .instruction (some (.plain ⟨0x04⟩)), .label none]

/-- The fault is told of once, as number 2, and what comes after it is not. -/
theorem observers_are_told_in_order_pops :
    let m : MethodInfo := { name := "m", descriptor := "(I)V" }
    let run := deliver visit false (new { hooks := .all })
      ((Event.method m :: popsTooOften).map some)
    let f := Fault.underflowAt ⟨0x57⟩ 2 ⟨0, 1⟩
    observed run.2 =
        [.method m, .opcode 0 (some (.plain ⟨0x04⟩)) [.const FieldType.int (.int 1)],
          .opcode 1 (some (.plain ⟨0x57⟩)) [], .fault 2 (some (.plain ⟨0x57⟩)) [] f] ∧
      run.1.phase = .inCode ∧ run.1.count = 3 ∧
      (∀ ev, ev.isElement → run.1.visit ev = (run.1, .refuse f)) ∧
      (run.1.visit .finish).2.result = some (.fault f) := by
  intro m run f
  have hcalls : observed run.2 =
      [.method m, .opcode 0 (some (.plain ⟨0x04⟩)) [.const FieldType.int (.int 1)],
        .opcode 1 (some (.plain ⟨0x57⟩)) [], .fault 2 (some (.plain ⟨0x57⟩)) [] f] := by
    decide +kernel
  have hphase : run.1.phase = .inCode := by decide +kernel
  obtain ⟨-, -, -, -, hfault⟩ := observers_are_told_in_order (new { hooks := .all }) rfl m
    popsTooOften (by simp [popsTooOften])
  have hmem : .fault 2 (some (.plain ⟨0x57⟩)) [] f ∈ observed run.2 := by
    rw [hcalls]
    simp
  obtain ⟨helements, hfinish, -⟩ := (hfault _ _ _ _ hmem).2 hphase
  exact ⟨hcalls, hphase, by decide +kernel, helements, hfinish⟩

end Engine

end OperandStack
