import OperandStack.Analysis
import OperandStack.Proofs.Delivery

/-!
# Depths that analyses report

An analysis sees a method through observers. It hears of the stack after each instruction that was
applied, before the one that was not, and at the end of the body; it never sees the engine. That is
enough to report the depths that the stack went through, which `Engine.depths` lists.

`Engine.Gauges` says what the tally of an analysis and the engine have to do with these depths, and
every event of a method keeps it. Events that come after the one that failed add nothing, so it does
not matter whether they are delivered (`analysis_reports_depths`).
-/

namespace OperandStack

open Protocol

/-! ## Traces -/

/-- Each of some events with the state in which a visitor meets it. -/
def Visitor.trace {σ : Type} (visit : Visitor σ) (s : σ) : List Event → List (σ × Event)
  | [] => []
  | ev :: evs => (s, ev) :: visit.trace (visit s ev).1 evs

def Event.isInstruction : Event → Bool
  | .instruction _ => true
  | _ => false

/-- The event is about the declaration of a method, or begins its body. -/
def Event.isDeclaring : Event → Bool
  | .method _ => true
  | .parameter _ _ => true
  | .code => true
  | _ => false

namespace Engine

/-- The depth in words after an instruction, if it is applied. -/
def depth? (p : Engine × Event) : Option Nat :=
  if p.2.isInstruction && (p.1.visit p.2).2.result.isNone then some (p.1.visit p.2).1.view.words
  else none

def depths (e : Engine) (evs : List Event) : List Nat :=
  (Visitor.trace visit e evs).filterMap depth?

def instructionFails (p : Engine × Event) : Bool :=
  p.2.isInstruction && p.1.phase = .inCode && (p.1.visit p.2).2.result.isSome

def declarationFails (p : Engine × Event) : Bool :=
  p.2.isDeclaring && (p.1.visit p.2).2.result.isSome

end Engine

section
variable {σ : Type} (visit : Visitor σ)

theorem Visitor.trace_append (s : σ) (evs rest : List Event) :
    visit.trace s (evs ++ rest) = visit.trace s evs ++ visit.trace (visit.after s evs) rest := by
  induction evs generalizing s with
  | nil => rfl
  | cons ev evs ih => simp only [List.cons_append, trace, after_cons, ih]

theorem Visitor.replies_eq_map_trace (s : σ) (evs : List Event) :
    visit.replies s evs = (visit.trace s evs).map fun p => (visit p.1 p.2).2 := by
  induction evs generalizing s with
  | nil => rfl
  | cons ev evs ih => simp only [replies, trace, List.map_cons, ih]

theorem Visitor.map_snd_trace (s : σ) (evs : List Event) :
    (visit.trace s evs).map (·.2) = evs := by
  induction evs generalizing s with
  | nil => rfl
  | cons ev evs ih => simp only [trace, List.map_cons, ih]

theorem Visitor.exists_of_trace_eq {visit : Visitor σ} {s : σ} {evs : List Event}
    {front rest : List (σ × Event)} {p : σ × Event} (h : visit.trace s evs = front ++ p :: rest) :
    ∃ before behind, evs = before ++ p.2 :: behind ∧ front = visit.trace s before ∧
      p.1 = visit.after s before := by
  induction front generalizing s evs with
  | nil =>
      cases evs with
      | nil => cases h
      | cons ev evs =>
          cases h
          exact ⟨[], evs, rfl, rfl, rfl⟩
  | cons q front ih =>
      cases evs with
      | nil => cases h
      | cons ev evs =>
          obtain ⟨rfl, hrest⟩ := List.cons.inj h
          obtain ⟨before, behind, rfl, rfl, hstate⟩ := ih hrest
          exact ⟨ev :: before, behind, rfl, rfl, hstate⟩

end

/-! ## Tallies -/

def Tally.told (t : Tally) (r : Reply) : Tally := (r.hooks.map (·.2)).foldl observe t

theorem Tally.told_of_silent (t : Tally) {r : Reply} (h : r.hooks = []) : t.told r = t := by
  rw [told, h]
  rfl

theorem Tally.told_of_call (t : Tally) {r : Reply} {call : HookCall}
    (h : r.hooks = [(0, call)]) : t.told r = t.observe call := by
  rw [told, h]
  rfl

theorem Tally.ofCalls_eq_foldl (replies : List Reply) :
    Tally.ofCalls (replies.flatMap fun r => r.hooks.map (·.2)) = replies.foldl told {} :=
  List.foldl_flatMap

namespace Engine

variable {e : Engine} {t : Tally} {ds : List Nat} {failed : Bool} {ev : Event}

/-- Observers that an analysis needs are told of everything. -/
theorem observe_of_tallied (h : e.config.hooks.tallied = e.config.hooks) {call : HookCall}
    (hcall : ∀ m, call ≠ .method m) : e.observe call = [(0, call)] := by
  have hwants : e.config.hooks.wants call := by
    rw [← h]
    cases call with
    | method m => exact absurd rfl (hcall m)
    | _ => rfl
  rw [observe, if_pos hwants]

/-- What an analysis has added up while the stack went through some depths, and whether an
instruction has failed since. -/
structure Gauges (t : Tally) (ds : List Nat) (failed : Bool) (e : Engine) : Prop where
  hooks : e.config.hooks.tallied = e.config.hooks
  maxDepth : t.maxDepth = ds.foldl max 0
  faulted : t.faulted = failed
  count : e.count = ds.length + if failed then 1 else 0
  /-- The last depth is known once there is no more to come. -/
  finalDepth : e.phase ≠ .inCode ∨ failed = true → t.finalDepth = ds.getLastD 0
  declared : e.phase = .inMethod → ds = [] ∧ failed = false
  coded : e.phase = .inCode →
    ∃ s, e.stack = some s ∧ s.words = ds.getLastD 0 ∧ e.sticky.isSome = failed

theorem Gauges.parameter (h : Gauges t ds failed e) (hphase : e.phase = .inMethod) (name : Text) :
    Gauges (t.told (e.receiveParameter name).2) ds failed (e.receiveParameter name).1 := by
  have hcoded {P : Prop} (hcode : e.phase = .inCode) : P := nomatch hphase.symm.trans hcode
  unfold receiveParameter
  split
  · exact h
  · split
    · exact h
    · split
      · exact { h with coded := hcoded }
      · exact { h with coded := hcoded }

theorem Gauges.code (h : Gauges t ds failed e) (hphase : e.phase = .inMethod) :
    Gauges (t.told e.receiveCode.2) ds failed e.receiveCode.1 := by
  have hcoded {P : Prop} (hcode : e.phase = .inCode) : P := nomatch hphase.symm.trans hcode
  obtain ⟨rfl, rfl⟩ := h.declared hphase
  unfold receiveCode
  split
  · exact h
  · next hsticky =>
    split
    · exact h
    · split
      · exact { h with coded := hcoded }
      · refine { h with finalDepth := ?_, declared := nofun, coded := fun _ => ⟨[], rfl, rfl, ?_⟩ }
        · rintro (hne | hfailed)
          · exact absurd rfl hne
          · cases hfailed
        · rw [hsticky]
          rfl

theorem Gauges.label (h : Gauges t ds failed e) :
    Gauges (t.told e.receiveLabel.2) ds failed e.receiveLabel.1 := by
  unfold receiveLabel
  split
  · exact h
  · exact { h with }

theorem Gauges.finish (h : Gauges t ds failed e) :
    Gauges (t.told e.receiveFinish.2) ds failed e.receiveFinish.1 := by
  by_cases hphase : e.phase = .inCode
  · obtain ⟨s, hstack, hwords, -⟩ := h.coded hphase
    have hhooks : e.receiveFinish.2.hooks = [(0, .codeEnd e.method s e.returned)] := by
      simp only [receiveFinish, hphase, hstack]
      exact observe_of_tallied h.hooks (by rintro _ ⟨⟩)
    have hengine : e.receiveFinish.1 = { e with stack := none, phase := .unattached } := by
      simp only [receiveFinish, hphase, hstack]
    rw [t.told_of_call hhooks, hengine]
    refine { h with finalDepth := fun _ => ?_, declared := by rintro ⟨⟩, coded := by rintro ⟨⟩ }
    have hfaulted := h.faulted
    cases failed with
    | false => simp [Tally.observe, hfaulted, hwords]
    | true => simp [Tally.observe, hfaulted, h.finalDepth (.inr rfl)]
  · have hreceive : e.receiveFinish =
        ({ e with phase := .unattached }, { result := e.sticky.map Stop.fault }) := by
      unfold receiveFinish
      split
      · next hcode => exact absurd hcode hphase
      · rfl
    rw [hreceive, t.told_of_silent rfl]
    exact { h with
      finalDepth := fun _ => h.finalDepth (.inl hphase)
      declared := by rintro ⟨⟩
      coded := by rintro ⟨⟩ }

theorem Gauges.applied {s : Operands} (h : Gauges t ds false e) (hready : e.Ready s) (c : Change)
    (ins : Option Instruction) :
    Gauges (t.told ((e.counted.change s c).applied e.count ins).2)
      (ds ++ [((e.counted.change s c).applied e.count ins).1.view.words]) false
      ((e.counted.change s c).applied e.count ins).1 := by
  let after := c.update.push ++ Operands.settle c.settles (s.drop c.taken)
  have hview : (e.counted.change s c).view = after := view_of_stack hready.phase rfl
  have hview' : ((e.counted.change s c).applied e.count ins).1.view = after := by
    rw [applied_eq]
    exact hview
  have hhooks : ((e.counted.change s c).applied e.count ins).2.hooks =
      [(0, .opcode e.count ins after)] := by
    rw [applied_hooks_eq, hview]
    exact observe_of_tallied h.hooks nofun
  rw [t.told_of_call hhooks, hview', applied_eq]
  constructor
  · exact h.hooks
  · simp [Tally.observe, h.maxDepth]
  · exact h.faulted
  · have hcount : e.count = ds.length := h.count
    have hnext : (ds ++ [after.words]).length = ds.length + 1 := List.length_append
    rw [hnext, ← hcount]
    rfl
  · rintro (hne | hfailed)
    · exact absurd hready.phase hne
    · cases hfailed
  · exact fun hmethod => nomatch hready.phase.symm.trans hmethod
  · exact fun _ => ⟨after, rfl, List.getLastD_concat.symm, congrArg Option.isSome hready.sticky⟩

theorem Gauges.faults {s : Operands} (h : Gauges t ds false e) (hready : e.Ready s)
    (hwords : s.words = ds.getLastD 0) (ins : Option Instruction) (f : Fault) :
    Gauges (t.told (e.counted.faulted e.count ins f).2) ds true
      (e.counted.faulted e.count ins f).1 := by
  have hview : e.counted.view = s := view_of_stack hready.phase hready.stack
  have hhooks : (e.counted.faulted e.count ins f).2.hooks = [(0, .fault e.count ins s f)] := by
    rw [← hview]
    exact observe_of_tallied h.hooks nofun
  rw [t.told_of_call hhooks]
  constructor
  · exact h.hooks
  · exact h.maxDepth
  · rfl
  · exact congrArg (· + 1) h.count
  · exact fun _ => hwords
  · exact fun hmethod => nomatch hready.phase.symm.trans hmethod
  · exact fun _ => ⟨s, hready.stack, hwords, rfl⟩

theorem Gauges.instruction (h : Gauges t ds failed e) (hphase : e.phase = .inCode)
    (ins : Option Instruction) (hcrashed : (e.receiveInstruction ins).2.crashed = false) :
    ((e.receiveInstruction ins).2.result = none →
      Gauges (t.told (e.receiveInstruction ins).2) (ds ++ [(e.receiveInstruction ins).1.view.words])
        failed (e.receiveInstruction ins).1) ∧
    ((e.receiveInstruction ins).2.result ≠ none →
      Gauges (t.told (e.receiveInstruction ins).2) ds true (e.receiveInstruction ins).1) := by
  obtain ⟨s, hstack, hwords, hfailed⟩ := h.coded hphase
  rcases hsticky : e.sticky with _ | f
  · obtain rfl : failed = false := by rw [← hfailed, hsticky]; rfl
    have hready : e.Ready s := ⟨hphase, hsticky, hstack⟩
    rw [receiveInstruction_eq hsticky] at hcrashed ⊢
    have hout := apply_outcome (e := e.counted) hstack e.count ins
    generalize e.counted.apply e.count ins = r at hout hcrashed
    cases hout with
    | applied hperforms happly =>
        exact ⟨fun _ => h.applied hready _ _, fun hne => absurd (applied_result _ _ _) hne⟩
    | lacking hperforms hlack => exact ⟨by rintro ⟨⟩, fun _ => h.faults hready hwords _ _⟩
    | refused hrefusal => exact ⟨by rintro ⟨⟩, fun _ => h.faults hready hwords _ _⟩
    | crashed => cases hcrashed
  · have hsame : e.receiveInstruction ins = (e, .refuse f) := by
      simp only [receiveInstruction, hsticky]
    obtain rfl : failed = true := by rw [← hfailed, hsticky]; rfl
    rw [hsame]
    exact ⟨by rintro ⟨⟩, fun _ => h⟩

/-- One event: what it adds to the depths and whether it fails. -/
theorem Gauges.visit (h : Gauges t ds failed e) (hev : ∀ m, ev ≠ .method m)
    (hcrashed : (e.visit ev).2.crashed = false) :
    Gauges (t.told (e.visit ev).2) (ds ++ (depth? (e, ev)).toList)
      (failed || instructionFails (e, ev)) (e.visit ev).1 := by
  rcases hobject : e.objection? ev with _ | f
  · have hvisit := visit_eq_receive hobject
    -- An event that is no instruction adds nothing to the depths.
    have hquiet (hnot : ev.isInstruction = false)
        (hnext : Gauges (t.told (e.receive ev).2) ds failed (e.receive ev).1) :
        Gauges (t.told (e.visit ev).2) (ds ++ (depth? (e, ev)).toList)
          (failed || instructionFails (e, ev)) (e.visit ev).1 := by
      simpa [depth?, instructionFails, hnot, hvisit] using hnext
    cases ev with
    | method m => exact absurd rfl (hev m)
    | parameter name access =>
        exact hquiet rfl (h.parameter (by simpa [objection?] using hobject) name)
    | code => exact hquiet rfl (h.code (by simpa [objection?] using hobject))
    | label name => exact hquiet rfl h.label
    | finish => exact hquiet rfl h.finish
    | instruction ins =>
        have hphase : e.phase = .inCode := by simpa [objection?] using hobject
        rw [hvisit] at hcrashed
        obtain ⟨happlied, hfails⟩ := h.instruction hphase ins hcrashed
        rcases hresult : (e.receiveInstruction ins).2.result with _ | stop
        · simpa [depth?, instructionFails, hvisit, receive, Event.isInstruction, hresult] using
            happlied hresult
        · simpa [depth?, instructionFails, hvisit, receive, Event.isInstruction, hresult, hphase]
            using hfails (by simp [hresult])
  · have hvisit : e.visit ev = (e, .refuse f) := by simp only [Engine.visit, hobject]
    have hquiet : instructionFails (e, ev) = false := by
      cases ev with
      | instruction ins =>
          have hphase : e.phase ≠ .inCode := by
            intro hphase
            simp [objection?, hphase] at hobject
          simp [instructionFails, hphase]
      | _ => rfl
    rw [hquiet, Bool.or_false, hvisit, t.told_of_silent rfl]
    simpa [depth?, hvisit, Reply.refuse] using h

/-! ## Whole methods -/

theorem depths_cons (e : Engine) (ev : Event) (evs : List Event) :
    e.depths (ev :: evs) = (depth? (e, ev)).toList ++ (e.visit ev).1.depths evs := by
  simp only [depths, Visitor.trace, List.filterMap_cons]
  cases depth? (e, ev) <;> rfl

theorem depths_append (e : Engine) (evs rest : List Event) :
    e.depths (evs ++ rest) = e.depths evs ++ (Visitor.after Engine.visit e evs).depths rest := by
  unfold depths
  rw [Visitor.trace_append, List.filterMap_append]

theorem Gauges.after {evs : List Event} (h : Gauges t ds failed e)
    (hevs : ∀ ev ∈ evs, ∀ m, ev ≠ .method m)
    (hcrashed : ∀ r ∈ Visitor.replies Engine.visit e evs, r.crashed = false) :
    Gauges ((Visitor.replies Engine.visit e evs).foldl Tally.told t) (ds ++ e.depths evs)
      (failed || (Visitor.trace Engine.visit e evs).any instructionFails)
      (Visitor.after Engine.visit e evs) := by
  induction evs generalizing e t ds failed with
  | nil => simpa [depths, Visitor.trace, Visitor.replies] using h
  | cons ev evs ih =>
      obtain ⟨hev, hrest⟩ := List.forall_mem_cons.1 hevs
      obtain ⟨hgoes, hlater⟩ := List.forall_mem_cons.1 hcrashed
      have hnext := ih (h.visit hev hgoes) hrest hlater
      rwa [List.append_assoc, ← depths_cons, Bool.or_assoc] at hnext

theorem gauges_method (h : e.config.hooks.tallied = e.config.hooks) (m : MethodInfo) :
    Gauges (({} : Tally).told (e.visit (.method m)).2) [] false (e.visit (.method m)).1 := by
  have hhooks : (e.visit (.method m)).2.hooks = e.observe (.method m) := by
    rw [visit_method]
    unfold receiveMethod declare
    split <;> rfl
  have htold : ({} : Tally).told (e.visit (.method m)).2 = {} := by
    unfold observe at hhooks
    split at hhooks
    · exact Tally.told_of_call _ hhooks
    · exact Tally.told_of_silent _ hhooks
  rw [htold, visit_method]
  unfold receiveMethod declare
  split
  · exact ⟨h, rfl, rfl, rfl, fun _ => rfl, fun _ => ⟨rfl, rfl⟩, nofun⟩
  · exact ⟨h, rfl, rfl, rfl, fun _ => rfl, fun _ => ⟨rfl, rfl⟩, nofun⟩

theorem gauges_part {given : List Event} (h : e.config.hooks.tallied = e.config.hooks)
    (hpart : Part given)
    (hcrashed : ∀ r ∈ Visitor.replies Engine.visit e given, r.crashed = false) :
    Gauges ((Visitor.replies Engine.visit e given).foldl Tally.told {}) (e.depths given)
      ((Visitor.trace Engine.visit e given).any instructionFails)
      (Visitor.after Engine.visit e given) := by
  obtain ⟨m, rest, rfl, hrest⟩ := hpart.begins
  have hlater := (List.forall_mem_cons.1 hcrashed).2
  exact (gauges_method h m).after hrest hlater

/-- The last depth is known at the end of a method, and also where it has been stopped. -/
theorem Gauges.finalDepth_of_ended (h : Gauges t ds failed e)
    (hended : e.phase = .unattached ∨ e.Halted) : t.finalDepth = ds.getLastD 0 := by
  by_cases hphase : e.phase = .inCode
  · rcases hended with hout | hhalted
    · cases hout.symm.trans hphase
    · obtain ⟨s, -, -, hfailed⟩ := h.coded hphase
      exact h.finalDepth (.inr (hfailed.symm.trans hhalted.sticky))
  · exact h.finalDepth (.inl hphase)

/-! ## After a failure -/

theorem Halted.depths_eq_nil {evs : List Event} (h : e.Halted)
    (hevs : ∀ ev ∈ evs, ∀ m, ev ≠ .method m) :
    e.depths evs = [] ∧ (Visitor.after Engine.visit e evs).count = e.count := by
  induction evs generalizing e with
  | nil => exact ⟨rfl, rfl⟩
  | cons ev evs ih =>
      obtain ⟨hev, hrest⟩ := List.forall_mem_cons.1 hevs
      obtain ⟨hnext, hsame, f, hf⟩ := h.visit hev
      obtain ⟨hdepths, hcount⟩ := ih hnext hrest
      have hdepth : depth? (e, ev) = none := by simp [depth?, hf]
      rw [depths_cons, hdepth, hdepths]
      exact ⟨rfl, hcount.trans hsame⟩

/-! ## Methods without a body -/

theorem mem_of_mem_trace {evs : List Event} {p : Engine × Event}
    (h : p ∈ Visitor.trace Engine.visit e evs) : p.2 ∈ evs := by
  have hmem := List.mem_map_of_mem (f := Prod.snd) h
  rwa [Visitor.map_snd_trace] at hmem

theorem exists_of_mem_trace {evs : List Event} {p : Engine × Event}
    (h : p ∈ Visitor.trace Engine.visit e evs) :
    ∃ front rest, evs = front ++ p.2 :: rest ∧ p.1 = Visitor.after Engine.visit e front := by
  obtain ⟨before, behind, htrace⟩ := List.append_of_mem h
  obtain ⟨front, rest, hevs, -, hstate⟩ := Visitor.exists_of_trace_eq htrace
  exact ⟨front, rest, hevs, hstate⟩

theorem Transition.phase_inCode {e' : Engine} {result : Option Stop}
    (h : e.Transition ev e' result) (hphase : e.phase ≠ .inCode) (hcode : e'.phase = .inCode) :
    ev = .code ∧ result = none := by
  cases h with
  | code => exact ⟨rfl, rfl⟩
  | refused => exact absurd hcode hphase
  | missing => exact absurd hcode hphase
  | declared => cases hcode
  | misdeclared => cases hcode
  | named hmethod => cases hmethod.symm.trans hcode
  | surplus hmethod => cases hmethod.symm.trans hcode
  | unplaced hmethod => cases hmethod.symm.trans hcode
  | label hcode => exact absurd hcode hphase
  | applied hready => exact absurd hready.phase hphase
  | faulted hcode => exact absurd hcode hphase
  | crashed hcode => exact absurd hcode hphase
  | finished => cases hcode

/-- Where no body begins, no instruction is applied and none fails. -/
theorem depths_of_no_code {evs : List Event} (hphase : e.phase ≠ .inCode)
    (h : ∀ p ∈ Visitor.trace Engine.visit e evs, p.2 = .code → (p.1.visit p.2).2.result ≠ none) :
    e.depths evs = [] ∧ (Visitor.trace Engine.visit e evs).any instructionFails = false := by
  induction evs generalizing e with
  | nil => exact ⟨rfl, rfl⟩
  | cons ev evs ih =>
      obtain ⟨hev, hrest⟩ := List.forall_mem_cons.1 h
      have hnext : (e.visit ev).1.phase ≠ .inCode := by
        intro hcode
        obtain ⟨hcode, hresult⟩ := (e.visit_transition ev).phase_inCode hphase hcode
        exact hev hcode hresult
      obtain ⟨hdepths, hfails⟩ := ih hnext hrest
      have hdepth : depth? (e, ev) = none := by
        cases ev with
        | instruction ins => simp [depth?, Engine.visit, objection?, hphase, Reply.refuse]
        | _ => rfl
      have hfail : instructionFails (e, ev) = false := by simp [instructionFails, hphase]
      rw [depths_cons, hdepth, hdepths]
      exact ⟨rfl, by simp [Visitor.trace, hfail, hfails]⟩

theorem not_isDeclaring_of_run {p q : Position} {evs : List Event} (hrun : p.run evs = some q)
    (hp : p ≠ .declared) (hevs : ∀ ev ∈ evs, ∀ m, ev ≠ .method m) :
    ∀ ev ∈ evs, ev.isDeclaring = false := by
  induction evs generalizing p with
  | nil => nofun
  | cons ev evs ih =>
      obtain ⟨hev, hrest⟩ := List.forall_mem_cons.1 hevs
      rw [Position.run_cons, Option.bind_eq_some_iff] at hrun
      obtain ⟨p', hnext, hrun⟩ := hrun
      have hstep : ev.isDeclaring = false ∧ p' ≠ .declared := by
        cases ev with
        | method m => exact absurd rfl (hev m)
        | _ => cases p <;> cases hnext <;> simp_all [Event.isDeclaring]
      exact List.forall_mem_cons.2 ⟨hstep.1, ih hrun hstep.2 hrest⟩

theorem part_at_code {front rest : List Event} (h : Part (front ++ .code :: rest)) :
    (Position.run .outside front).isSome ∧ (∀ ev ∈ front.tail, ∀ m, ev ≠ .method m) ∧
      ∀ ev ∈ rest, ev.isDeclaring = false := by
  obtain ⟨q, hrun⟩ := Option.isSome_iff_exists.1 (Position.isSome_run_part .outside h)
  rw [Position.run_append, Option.bind_eq_some_iff] at hrun
  obtain ⟨p, hfront, hrun⟩ := hrun
  rw [Position.run_cons, Option.bind_eq_some_iff] at hrun
  obtain ⟨p', hnext, hrun⟩ := hrun
  have hcoded : p' ≠ .declared := by
    cases p <;> cases hnext
    exact nofun
  obtain ⟨m, inner, hbegins, hinner⟩ := h.begins
  cases front with
  | nil => cases hbegins
  | cons ev params =>
      cases hbegins
      refine ⟨Option.isSome_of_eq_some hfront, ?_, ?_⟩
      · exact fun ev hev => hinner ev (List.mem_append_left _ hev)
      · refine not_isDeclaring_of_run hrun hcoded fun ev hev => hinner ev ?_
        exact List.mem_append_right _ (List.mem_cons_of_mem _ hev)

theorem declarationFails_of_accepted {p : Engine × Event}
    (h : (p.1.visit p.2).2.result = none) : declarationFails p = false := by
  simp [declarationFails, h]

/-- A body that begins has been declared without a failure. -/
theorem declared_of_code {given : List Event} (he : e.Unstopped .outside) (hpart : Part given)
    (hcrashed : ∀ r ∈ Visitor.replies Engine.visit e given, r.crashed = false)
    {p : Engine × Event} (hp : p ∈ Visitor.trace Engine.visit e given) (hcode : p.2 = .code)
    (haccepted : (p.1.visit p.2).2.result = none) :
    ∀ p ∈ Visitor.trace Engine.visit e given, declarationFails p = false := by
  obtain ⟨front, rest, rfl, hstate⟩ := exists_of_mem_trace hp
  rw [hcode] at hpart
  obtain ⟨hrun, hparams, hrest⟩ := part_at_code hpart
  rw [Visitor.replies_append] at hcrashed
  have hfront := fun r hr => hcrashed r (List.mem_append_left _ hr)
  -- A declaration that fails has stopped the engine, and then `code` is not accepted.
  rcases he.accepts_or_halted hrun hparams hfront with haccepts | hhalted
  · rw [Visitor.trace_append]
    intro p' hp'
    rcases List.mem_append.1 hp' with hp' | hp'
    · unfold Visitor.AcceptsAll at haccepts
      rw [Visitor.replies_eq_map_trace, List.forall_mem_map] at haccepts
      exact declarationFails_of_accepted (haccepts p' hp')
    · rcases List.mem_cons.1 hp' with rfl | hp'
      · exact declarationFails_of_accepted (hstate ▸ haccepted)
      · simp [declarationFails, hrest p'.2 (mem_of_mem_trace hp')]
  · rw [← hstate] at hhalted
    have hinner : ∀ m, p.2 ≠ .method m := by
      rw [hcode]
      exact nofun
    obtain ⟨-, -, f, hf⟩ := hhalted.visit hinner
    cases haccepted.symm.trans hf

end Engine

/-! ## Findings -/

def Stop.failure? : Stop → Option Failure
  | .fault f => some (.fault f)
  | .crash _ => none

/-- The finding sums up a replay that has not crashed. -/
structure Finding.SumsUp (r : Finding) (src : Source) (e : Engine) (replies : List Reply) :
    Prop where
  method : r.method = src.name
  instructions : r.instructions = e.count
  maxDepth : r.maxDepth = (replies.foldl Tally.told {}).maxDepth
  finalDepth : r.finalDepth = (replies.foldl Tally.told {}).finalDepth
  failure : r.failure = (replies.findSome? (·.result)).bind Stop.failure?

section
variable {config : Config} {src : Source} {given : List Event}

theorem exists_analysis
    (h : Delivered Engine.visit src.stop (Engine.forAnalysis config) src.events given) :
    ∃ a, analyze config src = .ok a ∧
      a.finding.SumsUp src (Visitor.after Engine.visit (Engine.forAnalysis config) given)
        (Visitor.replies Engine.visit (Engine.forAnalysis config) given) := by
  unfold analyze Source.replay
  rw [h.run]
  simp only [sumUp, outcome_of_not_crashed h.crashed, Tally.ofCalls_eq_foldl]
  rcases hfirst : (Visitor.replies Engine.visit (Engine.forAnalysis config) given).findSome?
      (·.result) with _ | f | c
  · rw [hfirst]
    exact ⟨_, rfl, rfl, rfl, rfl, rfl, congrArg (·.bind Stop.failure?) hfirst.symm⟩
  · rw [hfirst]
    exact ⟨_, rfl, rfl, rfl, rfl, rfl, congrArg (·.bind Stop.failure?) hfirst.symm⟩
  · exact absurd hfirst (findSome?_ne_crash h.crashed c)

theorem exists_delivered_of_analyze {a : Analysis} (h : analyze config src = .ok a) :
    ∃ given, Delivered Engine.visit src.stop (Engine.forAnalysis config) src.events given := by
  refine exists_delivered fun c hc => ?_
  simp [analyze, sumUp, Source.replay, hc] at h

theorem Finding.eq_but_returned {r r' : Finding} (hmethod : r'.method = r.method)
    (hinstructions : r'.instructions = r.instructions) (hmax : r'.maxDepth = r.maxDepth)
    (hfinal : r'.finalDepth = r.finalDepth) (hfailure : r'.failure = r.failure) :
    r' = { r with returned := r'.returned } := by
  rw [← hmethod, ← hinstructions, ← hmax, ← hfinal, ← hfailure]

/-- An analysis that has come to an end, and what it has delivered. -/
theorem exists_sumsUp {a : Analysis} (h : analyze config src = .ok a) :
    ∃ given, Delivered Engine.visit src.stop (Engine.forAnalysis config) src.events given ∧
      a.finding.SumsUp src (Visitor.after Engine.visit (Engine.forAnalysis config) given)
        (Visitor.replies Engine.visit (Engine.forAnalysis config) given) := by
  obtain ⟨given, hgiven⟩ := exists_delivered_of_analyze h
  obtain ⟨a', ha', hsums⟩ := exists_analysis hgiven
  cases h.symm.trans ha'
  exact ⟨given, hgiven, hsums⟩

theorem unstopped_forAnalysis (config : Config) :
    (Engine.forAnalysis config).Unstopped .outside :=
  Engine.unstopped_new _

theorem getLastD_le_foldl_max (ds : List Nat) : ds.getLastD 0 ≤ ds.foldl max 0 := by
  rcases List.eq_nil_or_concat ds with rfl | ⟨front, d, rfl⟩
  · exact Nat.le_refl 0
  · rw [List.concat_eq_append, List.getLastD_concat, List.foldl_append]
    exact Nat.le_max_right _ _

theorem Finding.SumsUp.depths {r : Finding}
    (hr : r.SumsUp src (Visitor.after Engine.visit (Engine.forAnalysis config) given)
      (Visitor.replies Engine.visit (Engine.forAnalysis config) given))
    (h : Delivered Engine.visit src.stop (Engine.forAnalysis config) src.events given)
    (hwhole : Whole (src.events.filterMap id)) :
    let ds := (Engine.forAnalysis config).depths given
    r.maxDepth = ds.foldl max 0 ∧ r.finalDepth = ds.getLastD 0 ∧
      r.instructions = ds.length +
        if (Visitor.trace Engine.visit (Engine.forAnalysis config) given).any
          Engine.instructionFails then 1 else 0 := by
  have hgauges := Engine.gauges_part rfl (h.part hwhole) h.crashed
  have hended := Engine.ended_or_halted (unstopped_forAnalysis config) h hwhole
  exact ⟨hr.maxDepth.trans hgauges.maxDepth,
    hr.finalDepth.trans (hgauges.finalDepth_of_ended hended),
    hr.instructions.trans hgauges.count⟩

theorem Finding.SumsUp.message? {r : Finding} {e : Engine} {replies : List Reply}
    (hr : r.SumsUp src e replies) (hcrashed : ∀ reply ∈ replies, reply.crashed = false) :
    (r.message? = none ↔ ∀ reply ∈ replies, reply.result = none) ∧
      ∀ f, replies.findSome? (·.result) = some (.fault f) →
        r.message? = some (src.name ++ ": " ++ f.message) := by
  have hfailure := hr.failure
  rw [← List.findSome?_eq_none_iff]
  rcases hfirst : replies.findSome? (·.result) with _ | f | c
  · rw [hfirst] at hfailure ⊢
    have hmessage : r.message? = none := by
      rw [Finding.message?, hfailure]
      rfl
    exact ⟨iff_of_true hmessage rfl, nofun⟩
  · rw [hfirst] at hfailure ⊢
    have hmessage : r.message? = some (src.name ++ ": " ++ f.message) := by
      rw [Finding.message?, hfailure, hr.method]
      rfl
    constructor
    · rw [hmessage]
      exact iff_of_false nofun nofun
    · intro f' hf'
      cases hf'
      exact hmessage
  · exact absurd hfirst (findSome?_ne_crash hcrashed c)

/-- There is nothing to report of a method that is not declared or has no body. -/
theorem depths_eq_nil
    (h : Delivered Engine.visit src.stop (Engine.forAnalysis config) src.events given)
    (hwhole : Whole (src.events.filterMap id))
    (hnot : (Visitor.trace Engine.visit (Engine.forAnalysis config) given).any
      Engine.declarationFails = true ∨ .code ∉ given) :
    (Engine.forAnalysis config).depths given = [] ∧
      (Visitor.trace Engine.visit (Engine.forAnalysis config) given).any
        Engine.instructionFails = false := by
  refine Engine.depths_of_no_code (nofun : Phase.unattached ≠ .inCode) fun p hp hcode hresult => ?_
  rcases hnot with hfails | hcodeless
  · obtain ⟨p', hp', hfail⟩ := List.any_eq_true.1 hfails
    have hdeclared := Engine.declared_of_code (unstopped_forAnalysis config) (h.part hwhole)
      h.crashed hp hcode hresult p' hp'
    cases hfail.symm.trans hdeclared
  · exact hcodeless (hcode ▸ Engine.mem_of_mem_trace hp)

end

/-! ## Two ways to deliver a method -/

theorem exists_map_some {α : Type} {xs : List (Option α)} (h : none ∉ xs) :
    ∃ ys : List α, xs = ys.map some := by
  induction xs with
  | nil => exact ⟨[], rfl⟩
  | cons x xs ih =>
      obtain ⟨ys, rfl⟩ := ih fun hmem => h (List.mem_cons_of_mem _ hmem)
      cases x with
      | none => exact absurd List.mem_cons_self h
      | some y => exact ⟨y :: ys, rfl⟩

section
variable {σ : Type} {visit : Visitor σ} {s : σ} {evs : List Event}

theorem deliver_isPrefix_replies (visit : Visitor σ) (stop : Bool) (s : σ) (evs : List Event) :
    (deliver visit stop s (evs.map some)).2 <+: visit.replies s evs := by
  induction evs generalizing s with
  | nil => exact List.prefix_rfl
  | cons ev evs ih =>
      rw [List.map_cons, deliver_cons, Visitor.replies]
      split
      · exact List.prefix_append [_] _
      · exact List.cons_prefix_cons.2 ⟨rfl, ih (visit s ev).1⟩

theorem exists_delivered_of_not_crashed
    (h : ∀ r ∈ visit.replies s evs, r.crashed = false) (stop : Bool) :
    ∃ given, Delivered visit stop s (evs.map some) given := by
  refine exists_delivered fun c hc => ?_
  obtain ⟨r, hr, hresult⟩ := outcome_deliver_eq_crash_iff.1 hc
  have hcrashed := h r ((deliver_isPrefix_replies visit stop s evs).subset hr)
  cases hcrashed.symm.trans (crashed_iff.2 ⟨c, hresult⟩)

/-- All events are delivered if nothing crashes and a failure is no reason to stop. -/
theorem delivered_of_not_crashed (h : ∀ r ∈ visit.replies s evs, r.crashed = false) :
    Delivered visit false s (evs.map some) evs := by
  obtain ⟨given, hgiven⟩ := exists_delivered_of_not_crashed h false
  rcases hgiven.given with hall | ⟨hstop, -⟩
  · rwa [(List.map_inj_right fun _ _ => Option.some.inj).1 hall] at hgiven ⊢
  · cases hstop

end

/-- What a delivery that stops at a failure leaves out is refused by an engine. -/
theorem Engine.exists_rest {e : Engine} {given all : List Event} (he : e.Unstopped .outside)
    (h : Delivered Engine.visit true e (all.map some) given) (hwhole : Whole all) :
    ∃ rest, all = given ++ rest ∧ (rest = [] ∨
      (Visitor.after Engine.visit e given).Halted ∧ (∀ ev ∈ rest, ∀ m, ev ≠ .method m) ∧
        ((Visitor.replies Engine.visit e given).findSome? (·.result)).isSome) := by
  have hpart := h.part ((filterMap_map_some all).symm ▸ hwhole)
  have hinj {evs evs' : List Event} (hsame : evs.map some = evs'.map some) : evs = evs' :=
    (List.map_inj_right fun _ _ => Option.some.inj).1 hsame
  rcases h.given with hsame | ⟨-, front, ev, rest, f, hfront, hrest, -, hf⟩
  · exact ⟨[], by rw [hinj hsame, List.append_nil], .inl rfl⟩
  · obtain ⟨given', rest', rfl, hgiven', rfl⟩ := List.map_eq_append_iff.1 hrest
    obtain rfl := hinj hgiven'
    have hmem : (Engine.visit (Visitor.after Engine.visit e front) ev).2 ∈
        Visitor.replies Engine.visit e given' := by
      rw [hfront]
      exact Visitor.mem_replies_snoc _ _ _ _
    have hrun := Position.isSome_run_part .outside hpart
    obtain ⟨m, params, rfl, hparams⟩ := hpart.begins
    have hwholePart : Part (.method m :: params ++ rest') := ⟨by simp, _, hwhole, List.prefix_rfl⟩
    obtain ⟨m', inner, hbegins, hinner⟩ := hwholePart.begins
    cases hbegins
    refine ⟨rest', rfl, .inr ⟨?_, fun ev hev => hinner ev (List.mem_append_right _ hev), ?_⟩⟩
    · refine (he.accepts_or_halted hrun hparams h.crashed).resolve_left fun haccepts => ?_
      cases (haccepts _ hmem).symm.trans hf
    · exact List.findSome?_isSome_iff.2 ⟨_, hmem, Option.isSome_of_eq_some hf⟩

theorem Engine.rest_adds_nothing {e : Engine} {given all : List Event} (he : e.Unstopped .outside)
    (h : Delivered Engine.visit true e (all.map some) given) (hwhole : Whole all) :
    e.depths all = e.depths given ∧
      (Visitor.after Engine.visit e all).count = (Visitor.after Engine.visit e given).count ∧
      (Visitor.replies Engine.visit e all).findSome? (·.result) =
        (Visitor.replies Engine.visit e given).findSome? (·.result) ∧
      ∀ r ∈ Visitor.replies Engine.visit e all, r.crashed = false := by
  obtain ⟨rest, rfl, rfl | ⟨hhalted, hrest, hfailed⟩⟩ := exists_rest he h hwhole
  · rw [List.append_nil]
    exact ⟨rfl, rfl, rfl, h.crashed⟩
  · obtain ⟨hdepths, hcount⟩ := hhalted.depths_eq_nil hrest
    have hfaults := (hhalted.after hrest).2
    rw [depths_append, hdepths, List.append_nil, Visitor.after_append, Visitor.replies_append,
      List.findSome?_append, Option.or_of_isSome hfailed]
    refine ⟨rfl, hcount, rfl, fun r hr => ?_⟩
    rcases List.mem_append.1 hr with hr | hr
    · exact h.crashed r hr
    · obtain ⟨f, hf⟩ := hfaults r hr
      simp [Reply.crashed, hf]

section
variable {config : Config} {src : Source}

/-- An analysis of all events and one that stops at a failure find the same, but for the returned
value. -/
theorem analyze_stopping {a' : Analysis} (hwhole : Whole (src.events.filterMap id))
    (h : analyze config { src with stop := false } = .ok a') :
    ∃ a, analyze config { src with stop := true } = .ok a ∧
      a'.finding = { a.finding with returned := a'.finding.returned } := by
  obtain ⟨all, hall, hsums'⟩ := exists_sumsUp h
  have hevents : src.events = all.map some := by
    rcases hall.given with hsame | ⟨hstop, -⟩
    · exact hsame
    · cases hstop
  obtain ⟨given, hgiven⟩ := exists_delivered_of_not_crashed hall.crashed true
  have hwholeAll : Whole all := by rwa [hevents, filterMap_map_some] at hwhole
  obtain ⟨hdepths, hcount, hfirst, -⟩ :=
    Engine.rest_adds_nothing (unstopped_forAnalysis config) hgiven hwholeAll
  rw [← hevents] at hgiven
  obtain ⟨a, ha, hsums⟩ := @exists_analysis config { src with stop := true } given hgiven
  obtain ⟨hmax', hfinal', -⟩ := hsums'.depths hall hwhole
  obtain ⟨hmax, hfinal, -⟩ := hsums.depths hgiven hwhole
  refine ⟨a, ha, Finding.eq_but_returned ?_ ?_ ?_ ?_ ?_⟩
  · rw [hsums'.method, hsums.method]
  · rw [hsums'.instructions, hsums.instructions, hcount]
  · rw [hmax', hmax, hdepths]
  · rw [hfinal', hfinal, hdepths]
  · rw [hsums'.failure, hsums.failure, hfirst]

/-- If nothing is missing from a method, the events after a failure can be delivered. -/
theorem analyze_not_stopping {a : Analysis} (hwhole : Whole (src.events.filterMap id))
    (hnone : none ∉ src.events) (h : analyze config { src with stop := true } = .ok a) :
    ∃ a', analyze config { src with stop := false } = .ok a' ∧
      a'.finding = { a.finding with returned := a'.finding.returned } := by
  obtain ⟨given, hgiven⟩ := exists_delivered_of_analyze h
  obtain ⟨all, hevents⟩ := exists_map_some hnone
  have hwholeAll : Whole all := by rwa [hevents, filterMap_map_some] at hwhole
  change Delivered Engine.visit true _ src.events given at hgiven
  rw [hevents] at hgiven
  obtain ⟨-, -, -, hcrashed⟩ :=
    Engine.rest_adds_nothing (unstopped_forAnalysis config) hgiven hwholeAll
  have hall := delivered_of_not_crashed hcrashed
  rw [← hevents] at hall
  obtain ⟨a', ha', -⟩ := @exists_analysis config { src with stop := false } all hall
  obtain ⟨a'', ha, hsame⟩ := analyze_stopping hwhole ha'
  cases h.symm.trans ha
  exact ⟨a', ha', hsame⟩

/-- An analysis comes to an end if nothing is missing and every instruction is of a known form. -/
theorem exists_analyze (hnone : none ∉ src.events)
    (hclosed : ∀ ev, some ev ∈ src.events → ev.isClosed)
    (hlength : src.events.length < Nat.pow 2 63) : ∃ a, analyze config src = .ok a := by
  obtain ⟨all, hevents⟩ := exists_map_some hnone
  rw [hevents, List.length_map] at hlength
  have hcrashed : ∀ r ∈ Visitor.replies Engine.visit (Engine.forAnalysis config) all,
      r.crashed = false := by
    intro r hr
    rw [← Bool.not_eq_true, crashed_iff]
    rintro ⟨c, hc⟩
    have hpromises := (unstopped_forAnalysis config).promises
    refine hpromises.replies_ne_crash (n := 0) (fun ev hev => hclosed ev ?_) (Int.le_refl 0)
      (Int.le_refl 0) (by omega) r hr c hc
    rw [hevents]
    exact List.mem_map_of_mem hev
  obtain ⟨given, hgiven⟩ := exists_delivered_of_not_crashed hcrashed src.stop
  rw [← hevents] at hgiven
  obtain ⟨a, ha, -⟩ := exists_analysis hgiven
  exact ⟨a, ha⟩

end

/-- The depths that an analysis reports are those that the stack went through. For any method and
any configuration, take the events that were delivered, and the depths after the instructions among
them that were applied. The greatest of the depths and the last one are reported, and the number of
instructions, with the one that failed if there is one. All are zero if the declaration fails or
there is no body. A failure is reported if there is one, and then it is the first. It makes no
difference to this whether the events after a failure are delivered. -/
theorem analysis_reports_depths (config : Config) (src : Source) (hsrc : src.IsMethod) :
    let e := Engine.forAnalysis config
    let given := (src.replay (Visitor.logged Engine.visit) (e, [])).1.2
    let replies := (src.replay Engine.visit e).2
    let trace := Visitor.trace Engine.visit e given
    let ds := e.depths given
    (∀ a, analyze config src = .ok a →
      a.finding.method = src.name ∧
      a.finding.maxDepth = ds.foldl max 0 ∧ a.finding.finalDepth = ds.getLastD 0 ∧
      a.finding.finalDepth ≤ a.finding.maxDepth ∧
      a.finding.instructions = ds.length + (if trace.any Engine.instructionFails then 1 else 0) ∧
      (trace.any Engine.declarationFails = true ∨ .code ∉ given →
        a.finding.instructions = 0 ∧ a.finding.maxDepth = 0 ∧ a.finding.finalDepth = 0) ∧
      (a.finding.message? = none ↔ ∀ r ∈ replies, r.result = none) ∧
      ∀ f, replies.findSome? (·.result) = some (.fault f) →
        a.finding.message? = some (src.name ++ ": " ++ f.message)) ∧
    (none ∉ src.events → (∀ ev, some ev ∈ src.events → ev.isClosed) →
      src.events.length < Nat.pow 2 63 → ∃ a, analyze config src = .ok a) ∧
    (∀ a', analyze config { src with stop := false } = .ok a' →
      ∃ a, analyze config { src with stop := true } = .ok a ∧
        a'.finding = { a.finding with returned := a'.finding.returned }) ∧
    (none ∉ src.events → ∀ a, analyze config { src with stop := true } = .ok a →
      ∃ a', analyze config { src with stop := false } = .ok a' ∧
        a'.finding = { a.finding with returned := a'.finding.returned }) := by
  intro e given replies trace ds
  refine ⟨?_, exists_analyze, fun a' => analyze_stopping hsrc.whole,
    fun hnone a => analyze_not_stopping hsrc.whole hnone⟩
  intro a ha
  obtain ⟨given', hgiven, hsums⟩ := exists_sumsUp ha
  have hlogged : given = given' := hgiven.logged []
  have hreplies : replies = Visitor.replies Engine.visit e given' := congrArg Prod.snd hgiven.run
  obtain ⟨hmax, hfinal, hcount⟩ := hsums.depths hgiven hsrc.whole
  obtain ⟨hnone, hfirst⟩ := hsums.message? hgiven.crashed
  rw [← hlogged] at hmax hfinal hcount
  rw [← hreplies] at hnone hfirst
  refine ⟨hsums.method, hmax, hfinal, ?_, hcount, fun hnot => ?_, hnone, hfirst⟩
  · rw [hmax, hfinal]
    exact getLastD_le_foldl_max ds
  · have hnil := depths_eq_nil hgiven hsrc.whole
    rw [← hlogged] at hnil
    obtain ⟨hds, hfails⟩ := hnil hnot
    rw [hmax, hfinal, hcount, hds, hfails]
    exact ⟨rfl, rfl, rfl⟩

/-- Pushes an int and a long, drops the long, and has nothing to add to the int. -/
def addsToNothing : Body where
  access := .empty
  name := "f"
  descriptor := "()V"
  params := []
  code := [some (.instruction (.plain ⟨0x04⟩)), some (.instruction (.plain ⟨0x09⟩)),
    some (.instruction (.plain ⟨0x57⟩)), some (.instruction (.plain ⟨0x60⟩)),
    some (.instruction (.plain ⟨0x04⟩))]

theorem analysis_reports_depths_adds :
    ∃ a a', analyze {} (addsToNothing.source true) = .ok a ∧
      analyze {} (addsToNothing.source false) = .ok a' ∧
      a'.finding.maxDepth = 3 ∧ a'.finding.finalDepth = 1 ∧ a'.finding.instructions = 4 ∧
      a.finding.maxDepth = 3 ∧ a.finding.finalDepth = 1 ∧ a.finding.instructions = 4 := by
  have hclosed : ∀ ev ∈ addsToNothing.events, ev.all Event.isClosed := by decide +kernel
  obtain ⟨hfinding, hreturns, hstops, -⟩ :=
    analysis_reports_depths {} (addsToNothing.source false) (.body addsToNothing false)
  obtain ⟨a', ha'⟩ :=
    hreturns (by decide +kernel) (fun ev hev => hclosed _ hev) (by decide +kernel)
  obtain ⟨a, ha, hsame⟩ := hstops a' ha'
  obtain ⟨-, hmax, hfinal, -, hcount, -⟩ := hfinding a' ha'
  have hds : (Engine.forAnalysis {}).depths
      ((addsToNothing.source false).replay (Visitor.logged Engine.visit)
        (Engine.forAnalysis {}, [])).1.2 = [1, 3, 1] := by decide +kernel
  have hfails : (Visitor.trace Engine.visit (Engine.forAnalysis {})
      ((addsToNothing.source false).replay (Visitor.logged Engine.visit)
        (Engine.forAnalysis {}, [])).1.2).any Engine.instructionFails = true := by decide +kernel
  rw [hds] at hmax hfinal hcount
  rw [hfails] at hcount
  rw [hsame] at hmax hfinal hcount
  exact ⟨a, a', ha, ha', hsame ▸ hmax, hsame ▸ hfinal, hsame ▸ hcount, hmax, hfinal, hcount⟩

end OperandStack
