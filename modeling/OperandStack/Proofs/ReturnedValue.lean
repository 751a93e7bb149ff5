import OperandStack.Proofs.Depth

/-!
# Returned values that analyses report

A body may return a value more than once, and go on after that. `Engine.operandsReturned` lists the
operands of the instructions that returned one, and an engine keeps the last of them. An analysis
hears of it at the end of the body and at no other time (`Engine.Remits`). So it reports the last
operand if the end of the method is delivered. A method that is stopped by a failure and does not
deliver the rest never gets there, and what it has returned is not reported.
-/

namespace OperandStack

open Protocol

/-! ## Instructions that return a value -/

/-- Returns a value from the method: `ireturn` to `areturn`. -/
def Opcode.returnsValue (op : Opcode) : Bool := 0xAC ≤ op.code && op.code ≤ 0xB0

theorem Operation.returnsValue_iff : ∀ p ∈ Operation.all.zipIdx,
    Opcode.returnsValue ⟨.ofNat p.2⟩ = decide (p.1.action = .returnValue) := by
  decide +kernel

theorem Instruction.Performs.returnsValue {ins : Instruction} {action : Action}
    (h : ins.Performs action) : ins.opcode.returnsValue = decide (action = .returnValue) := by
  obtain ⟨o, hop, -, rfl⟩ := h
  have hreturns := Operation.returnsValue_iff _ (List.mk_mem_zipIdx_iff_getElem?.2 hop)
  rwa [UInt8.ofNat_toNat] at hreturns

namespace Action

variable {action : Action} {e : Engine} {s : Operands} {ins : Instruction} {c : Change}

theorem run_returned_of_ne {args : Operands} {u : Update} (hne : action ≠ .returnValue)
    (h : action.run e ins args = .ok u) : u.returned = none := by
  cases action with
  | returnValue => exact absurd rfl hne
  | _ =>
      simp only [run] at h
      repeat' split at h
      all_goals cases h
      all_goals rfl

/-- The value that is returned is the operand. -/
theorem Applies.returned_eq (h : action.Applies e s ins c) (hperforms : ins.Performs action) :
    c.update.returned = if action = .returnValue then s.head? else none := by
  split
  · next hreturn =>
    subst hreturn
    cases h with
    | fixed hfixed hcounts hle hrun =>
        obtain rfl := hperforms.pops_eq hfixed hcounts rfl
        cases s with
        | nil => cases hle
        | cons v s =>
            cases hrun
            rfl
  · next hne =>
    cases h with
    | fixed _ _ _ hrun => exact run_returned_of_ne hne hrun
    | _ => rfl

theorem Applies.head?_isSome (h : returnValue.Applies e s ins c)
    (hperforms : ins.Performs .returnValue) : s.head?.isSome := by
  cases h with
  | fixed hfixed hcounts hle _ =>
      obtain rfl := hperforms.pops_eq hfixed hcounts rfl
      cases s with
      | nil => cases hle
      | cons v s => rfl

end Action

namespace Engine

def appliesReturn (p : Engine × Event) : Bool :=
  match p.2 with
  | .instruction (some ins) => ins.opcode.returnsValue && (p.1.visit p.2).2.result.isNone
  | _ => false

def operandReturned? (p : Engine × Event) : Option Value :=
  if appliesReturn p then p.1.view.head? else none

def operandsReturned (e : Engine) (evs : List Event) : List Value :=
  (Visitor.trace visit e evs).filterMap operandReturned?

end Engine

/-! ## What an analysis hears -/

/-- Ends of bodies are what an analysis hears of returned values from. -/
def HookCall.isCodeEnd : HookCall → Bool
  | .codeEnd _ _ _ => true
  | _ => false

theorem Tally.returned_told (t : Tally) {r : Reply} (h : ∀ p ∈ r.hooks, p.2.isCodeEnd = false) :
    (t.told r).returned = t.returned := by
  unfold told
  generalize r.hooks = calls at h
  induction calls generalizing t with
  | nil => rfl
  | cons p calls ih =>
      obtain ⟨hp, hrest⟩ := List.forall_mem_cons.1 h
      rw [List.map_cons, List.foldl_cons, ih _ hrest]
      rcases p with ⟨distance, call⟩
      cases call with
      | codeEnd => cases hp
      | _ => rfl

namespace Engine

variable {e : Engine} {t : Tally} {vs : List Value} {ev : Event}

theorem isCodeEnd_of_mem_observe {call : HookCall} {p : Nat × HookCall} (h : p ∈ e.observe call) :
    p.2.isCodeEnd = call.isCodeEnd := by
  unfold observe at h
  split at h
  · rw [List.mem_singleton.1 h]
  · cases h

theorem isCodeEnd_of_mem_hooks (hev : ev ≠ .finish) {p : Nat × HookCall}
    (h : p ∈ (e.visit ev).2.hooks) : p.2.isCodeEnd = false := by
  rcases hobject : e.objection? ev with _ | f
  · rw [visit_eq_receive hobject] at h
    cases ev with
    | finish => exact absurd rfl hev
    | method m =>
        have hhooks : (e.receiveMethod m).2.hooks = e.observe (.method m) := by
          unfold receiveMethod declare
          split <;> rfl
        rw [receive, hhooks] at h
        exact isCodeEnd_of_mem_observe h
    | parameter name access =>
        simp only [receive, receiveParameter] at h
        repeat' split at h
        all_goals cases h
    | code =>
        simp only [receive, receiveCode] at h
        repeat' split at h
        all_goals cases h
    | label name =>
        simp only [receive, receiveLabel] at h
        repeat' split at h
        all_goals cases h
    | instruction ins =>
        simp only [receive, receiveInstruction] at h
        split at h
        · cases h
        · unfold told at h
          split at h
          · rw [applied_hooks_eq] at h
            exact isCodeEnd_of_mem_observe h
          · exact isCodeEnd_of_mem_observe h
          · cases h
  · simp only [visit, hobject] at h
    cases h

/-- What an analysis and an engine know of the values that have been returned. -/
structure Remits (t : Tally) (vs : List Value) (e : Engine) : Prop where
  hooks : e.config.hooks.tallied = e.config.hooks
  declared : e.phase = .inMethod → vs = [] ∧ e.returned = none
  coded : e.phase = .inCode → e.returned = vs.getLast?
  /-- The analysis has heard nothing before the end. -/
  unheard : e.phase ≠ .unattached → t.returned = none
  heard : e.phase = .unattached → t.returned = vs.getLast?

theorem Remits.finish (h : Remits t vs e) (hcrashed : (e.visit .finish).2.crashed = false) :
    Remits (t.told (e.visit .finish).2) vs (e.visit .finish).1 := by
  cases hphase : e.phase with
  | unattached =>
      have hvisit : e.visit .finish = (e, .refuse (.unexpected .finish e.phase)) := by
        simp [visit, objection?, hphase]
      rw [hvisit, t.told_of_silent rfl]
      exact h
  | inMethod =>
      have hvisit : e.visit .finish =
          ({ e with phase := .unattached }, { result := e.sticky.map Stop.fault }) := by
        simp [visit, objection?, receive, receiveFinish, hphase]
      obtain ⟨rfl, -⟩ := h.declared hphase
      have hunheard : t.returned = none := h.unheard (by simp [hphase])
      rw [hvisit, t.told_of_silent rfl]
      exact ⟨h.hooks, by rintro ⟨⟩, by rintro ⟨⟩, fun hne => absurd rfl hne, fun _ => hunheard⟩
  | inCode =>
      have hvisit : e.visit .finish = e.receiveFinish :=
        visit_eq_receive (by simp [objection?, hphase])
      rw [hvisit] at hcrashed ⊢
      rcases hstack : e.stack with _ | s
      · simp [receiveFinish, hphase, hstack, Reply.crashed, Reply.crash] at hcrashed
      · have hhooks : e.receiveFinish.2.hooks = [(0, .codeEnd e.method s e.returned)] := by
          simp only [receiveFinish, hphase, hstack]
          exact observe_of_tallied h.hooks (by rintro _ ⟨⟩)
        have hengine : e.receiveFinish.1 = { e with stack := none, phase := .unattached } := by
          simp only [receiveFinish, hphase, hstack]
        rw [t.told_of_call hhooks, hengine]
        exact ⟨h.hooks, by rintro ⟨⟩, by rintro ⟨⟩, fun hne => absurd rfl hne,
          fun _ => h.coded hphase⟩

theorem Remits.advanced {s : Operands} {ins : Instruction} {action : Action} {c : Change}
    (h : Remits t vs e) (hready : e.Ready s) (hperforms : ins.Performs action)
    (happly : action.Applies e s ins c) :
    Remits t (vs ++ (if ins.opcode.returnsValue then s.head? else none).toList)
      (e.advanced s c) := by
  have hphase : (e.advanced s c).phase = .inCode := hready.phase
  have hreturned : (e.advanced s c).returned = (c.update.returned <|> e.returned) := rfl
  constructor
  · exact h.hooks
  · intro hmethod
    cases hphase.symm.trans hmethod
  · intro _
    rw [hreturned, happly.returned_eq hperforms, hperforms.returnsValue, h.coded hready.phase]
    by_cases hreturn : action = .returnValue
    · cases s <;> simp [hreturn]
    · simp [hreturn]
  · intro _
    exact h.unheard (by simp [hready.phase])
  · intro hout
    cases hphase.symm.trans hout

theorem operandReturned?_of_refused {stop : Stop} (h : (e.visit ev).2.result = some stop) :
    operandReturned? (e, ev) = none := by
  unfold operandReturned? appliesReturn
  split
  · simp [h]
  · rfl

theorem head?_of_appliesReturn {p : Engine × Event} (h : appliesReturn p = true) :
    p.1.view.head?.isSome := by
  obtain ⟨e, ev⟩ := p
  unfold appliesReturn at h
  split at h
  · next ins hins =>
    change ev = .instruction (some ins) at hins
    obtain ⟨hreturns, hresult⟩ := Bool.and_eq_true_iff.1 h
    have htrans := e.visit_transition ev
    rw [Option.isNone_iff_eq_none.1 hresult] at htrans
    generalize (e.visit ev).1 = e' at htrans
    subst hins
    generalize hnone : (none : Option Stop) = result at htrans
    cases htrans with
    | applied hready hperforms happly =>
        rw [hperforms.returnsValue, decide_eq_true_iff] at hreturns
        subst hreturns
        rw [hready.view]
        exact happly.head?_isSome hperforms
    | _ => cases hnone
  · cases h

/-- One event of a method: what it returns is kept, and told at the end. -/
theorem Remits.visit (h : Remits t vs e) (hev : ∀ m, ev ≠ .method m)
    (hcrashed : (e.visit ev).2.crashed = false) :
    Remits (t.told (e.visit ev).2) (vs ++ (operandReturned? (e, ev)).toList) (e.visit ev).1 := by
  by_cases hfinish : ev = .finish
  · subst hfinish
    have hnone : operandReturned? (e, .finish) = none := rfl
    rw [hnone, Option.toList_none, List.append_nil]
    exact h.finish hcrashed
  · have htold : (t.told (e.visit ev).2).returned = t.returned :=
      t.returned_told fun p hp => isCodeEnd_of_mem_hooks hfinish hp
    -- The analysis hears nothing, so the engine is all that may have changed.
    suffices hengine : Remits t (vs ++ (operandReturned? (e, ev)).toList) (e.visit ev).1 from
      { hengine with unheard := by rw [htold]; exact hengine.unheard
                     heard := by rw [htold]; exact hengine.heard }
    have htrans := e.visit_transition ev
    have hrefused (stop : Stop) (hstop : (e.visit ev).2.result = some stop) :
        vs ++ (operandReturned? (e, ev)).toList = vs := by
      rw [operandReturned?_of_refused hstop, Option.toList_none, List.append_nil]
    generalize hresult : (e.visit ev).2.result = result at htrans hrefused
    generalize (e.visit ev).1 = e' at htrans
    cases htrans with
    | declared => exact absurd rfl (hev _)
    | misdeclared => exact absurd rfl (hev _)
    | finished => exact absurd rfl hfinish
    | missing => simp [Reply.crashed, hresult] at hcrashed
    | crashed => simp [Reply.crashed, hresult] at hcrashed
    | refused =>
        rw [hrefused _ rfl]
        exact h
    | surplus =>
        rw [hrefused _ rfl]
        exact { h with }
    | unplaced =>
        rw [hrefused _ rfl]
        exact { h with }
    | faulted =>
        rw [hrefused _ rfl]
        exact { h with }
    | named => simpa [operandReturned?, appliesReturn] using { h with }
    | label => simpa [operandReturned?, appliesReturn] using { h with }
    | code hphase =>
        obtain ⟨rfl, hreturned⟩ := h.declared hphase
        have hunheard : t.returned = none := h.unheard (by simp [hphase])
        exact ⟨h.hooks, by rintro ⟨⟩, fun _ => hreturned, fun _ => hunheard, by rintro ⟨⟩⟩
    | applied hready hperforms happly =>
        have hview : e.view = _ := hready.view
        simpa [operandReturned?, appliesReturn, hresult, hview]
          using h.advanced hready hperforms happly

/-! ## Whole methods -/

theorem operandsReturned_cons (e : Engine) (ev : Event) (evs : List Event) :
    e.operandsReturned (ev :: evs) =
      (operandReturned? (e, ev)).toList ++ (e.visit ev).1.operandsReturned evs := by
  simp only [operandsReturned, Visitor.trace, List.filterMap_cons]
  cases operandReturned? (e, ev) <;> rfl

theorem operandsReturned_eq_nil_iff {evs : List Event} :
    e.operandsReturned evs = [] ↔
      ∀ p ∈ Visitor.trace Engine.visit e evs, appliesReturn p = false := by
  rw [operandsReturned, List.filterMap_eq_nil_iff]
  refine forall₂_congr fun p _ => ?_
  unfold operandReturned?
  cases happlies : appliesReturn p with
  | false => simp
  | true => simpa using Option.isSome_iff_ne_none.1 (head?_of_appliesReturn happlies)

theorem Remits.after {evs : List Event} (h : Remits t vs e)
    (hevs : ∀ ev ∈ evs, ∀ m, ev ≠ .method m)
    (hcrashed : ∀ r ∈ Visitor.replies Engine.visit e evs, r.crashed = false) :
    Remits ((Visitor.replies Engine.visit e evs).foldl Tally.told t) (vs ++ e.operandsReturned evs)
      (Visitor.after Engine.visit e evs) := by
  induction evs generalizing e t vs with
  | nil => simpa [operandsReturned, Visitor.trace, Visitor.replies] using h
  | cons ev evs ih =>
      obtain ⟨hev, hrest⟩ := List.forall_mem_cons.1 hevs
      obtain ⟨hgoes, hlater⟩ := List.forall_mem_cons.1 hcrashed
      have hnext := ih (h.visit hev hgoes) hrest hlater
      rwa [List.append_assoc, ← operandsReturned_cons] at hnext

theorem remits_method (h : e.config.hooks.tallied = e.config.hooks) (m : MethodInfo) :
    Remits (({} : Tally).told (e.visit (.method m)).2) [] (e.visit (.method m)).1 := by
  obtain ⟨hconfig, hphase, hreturned⟩ : (e.visit (.method m)).1.config = e.config ∧
      (e.visit (.method m)).1.phase = .inMethod ∧ (e.visit (.method m)).1.returned = none := by
    rw [visit_method]
    unfold receiveMethod declare
    split <;> exact ⟨rfl, rfl, rfl⟩
  have hne : Event.method m ≠ .finish := nofun
  have htold : (({} : Tally).told (e.visit (.method m)).2).returned = none :=
    Tally.returned_told _ fun p hp => isCodeEnd_of_mem_hooks hne hp
  constructor
  · rw [hconfig, h]
  · exact fun _ => ⟨rfl, hreturned⟩
  · exact fun hcode => nomatch hphase.symm.trans hcode
  · exact fun _ => htold
  · exact fun _ => htold

theorem remits_part {given : List Event} (h : e.config.hooks.tallied = e.config.hooks)
    (hpart : Part given)
    (hcrashed : ∀ r ∈ Visitor.replies Engine.visit e given, r.crashed = false) :
    Remits ((Visitor.replies Engine.visit e given).foldl Tally.told {}) (e.operandsReturned given)
      (Visitor.after Engine.visit e given) := by
  obtain ⟨m, rest, rfl, hrest⟩ := hpart.begins
  have hlater := (List.forall_mem_cons.1 hcrashed).2
  exact (remits_method h m).after hrest hlater

/-! ## Where a delivery ends -/

/-- With its last event a method is over, whether or not something has failed. -/
theorem phase_of_finish (h : (e.visit .finish).2.crashed = false) :
    (e.visit .finish).1.phase = .unattached := by
  cases hphase : e.phase with
  | unattached => simp [visit, objection?, hphase]
  | inMethod => simp [visit, objection?, receive, receiveFinish, hphase]
  | inCode =>
      cases hstack : e.stack with
      | none =>
          simp [visit, objection?, receive, receiveFinish, hphase, hstack, Reply.crashed,
            Reply.crash] at h
      | some s => simp [visit, objection?, receive, receiveFinish, hphase, hstack]

/-- A failure in a method leaves it open. -/
theorem Unstopped.phase_of_fault {p q : Position} {f : Fault} (h : e.Unstopped p)
    (hnext : p.next ev = some q) (hf : (e.visit ev).2.result = some (.fault f)) :
    (e.visit ev).1.phase ≠ .unattached := by
  have hobject := h.objection? hnext
  have htrans := e.visit_transition ev
  rw [hf] at htrans
  generalize (e.visit ev).1 = e' at htrans
  generalize hresult : some (Stop.fault f) = result at htrans
  cases htrans with
  | refused hf =>
      rcases hf with hf | hf
      · cases hobject.symm.trans hf
      · cases h.sticky.symm.trans hf
  | misdeclared => exact nofun
  | surplus hphase => simp [hphase]
  | unplaced hphase => simp [hphase]
  | faulted hphase => simp [counted, hphase]
  | finished =>
      rw [h.sticky] at hresult
      cases hresult
  | _ => cases hresult

end Engine

section
variable {σ : Type} {visit : Visitor σ} {s : σ} {evs : List (Option Event)}

/-- Where the first failure ends a delivery, there is none before the last reply. -/
theorem result_of_mem_dropLast_deliver :
    ∀ r ∈ (deliver visit true s evs).2.dropLast, r.result = none := by
  induction evs generalizing s with
  | nil => exact List.forall_mem_nil _
  | cons ev evs ih =>
      cases ev with
      | none => exact List.forall_mem_nil _
      | some ev =>
          rw [deliver_cons]
          split
          · exact List.forall_mem_nil _
          · next hends =>
            have haccepted : (visit s ev).2.result = none := by
              simpa [Reply.ends] using (Bool.or_eq_false_iff.1 (Bool.eq_false_iff.2 hends)).2
            have hlater := @ih (visit s ev).1
            cases hrest : (deliver visit true (visit s ev).1 evs).2 with
            | nil => exact List.forall_mem_nil _
            | cons r rs =>
                rw [hrest] at hlater
                exact List.forall_mem_cons.2 ⟨haccepted, hlater⟩

theorem Delivered.acceptsAll_front {front : List Event} {ev : Event}
    (h : Delivered visit true s evs (front ++ [ev])) : visit.AcceptsAll s front := by
  have hearlier : ∀ r ∈ (deliver visit true s evs).2.dropLast, r.result = none :=
    result_of_mem_dropLast_deliver
  rw [h.run, Visitor.replies_append] at hearlier
  simpa [Visitor.replies, Visitor.AcceptsAll] using hearlier

end

namespace Engine

variable {e : Engine} {stop : Bool} {evs : List (Option Event)} {given : List Event}

theorem phase_of_all (h : Delivered Engine.visit false e evs given)
    (hwhole : Whole (evs.filterMap id)) :
    (Visitor.after Engine.visit e given).phase = .unattached := by
  rcases h.given with rfl | ⟨hstop, -⟩
  · rw [filterMap_map_some] at hwhole
    obtain ⟨m, inner, rfl, -⟩ := hwhole.begins
    have hgoes := h.crashed _ (Visitor.mem_replies_snoc Engine.visit e _ .finish)
    rw [Visitor.after_append]
    exact phase_of_finish hgoes
  · cases hstop

theorem phase_of_stopped (he : e.Unstopped .outside) (h : Delivered Engine.visit true e evs given)
    (hwhole : Whole (evs.filterMap id))
    (hfails : ∃ r ∈ Visitor.replies Engine.visit e given, r.result ≠ none) :
    (Visitor.after Engine.visit e given).phase ≠ .unattached := by
  rcases List.eq_nil_or_concat given with rfl | ⟨front, ev, rfl⟩
  · exact absurd rfl (h.part hwhole).1
  rw [List.concat_eq_append] at h hfails ⊢
  have haccepts := h.acceptsAll_front
  obtain ⟨q, hrun⟩ := Option.isSome_iff_exists.1 (Position.isSome_run_part .outside (h.part hwhole))
  rw [Position.run_append, Option.bind_eq_some_iff] at hrun
  obtain ⟨p, hfront, hrun⟩ := hrun
  rw [Position.run_cons, Option.bind_eq_some_iff] at hrun
  obtain ⟨p', hnext, -⟩ := hrun
  -- All of the front is accepted, so the failure is in the last event.
  obtain ⟨f, hf⟩ : ∃ f, ((Visitor.after Engine.visit e front).visit ev).2.result =
      some (.fault f) := by
    obtain ⟨r, hr, hresult⟩ := hfails
    have hgoes := h.crashed r hr
    rw [Visitor.replies_append] at hr
    rcases List.mem_append.1 hr with hr | hr
    · exact absurd (haccepts r hr) hresult
    · rw [List.mem_singleton.1 hr] at hresult hgoes
      obtain ⟨stop, hstop⟩ := Option.ne_none_iff_exists'.1 hresult
      cases stop with
      | fault f => exact ⟨f, hstop⟩
      | crash c => simp [Reply.crashed, hstop] at hgoes
  rw [Visitor.after_append]
  exact (he.after hfront haccepts).phase_of_fault hnext hf

end Engine

/-! ## Findings -/

section
variable {config : Config} {src : Source} {given : List Event} {a : Analysis}

theorem returned_eq_told (ha : analyze config src = .ok a)
    (h : Delivered Engine.visit src.stop (Engine.forAnalysis config) src.events given) :
    a.finding.returned =
      ((Visitor.replies Engine.visit (Engine.forAnalysis config) given).foldl
        Tally.told {}).returned := by
  unfold analyze Source.replay at ha
  rw [h.run] at ha
  simp only [sumUp, Tally.ofCalls_eq_foldl] at ha
  split at ha <;> cases ha <;> rfl

theorem Finding.SumsUp.failed_iff {r : Finding} {e : Engine} {replies : List Reply}
    (hr : r.SumsUp src e replies) (hcrashed : ∀ reply ∈ replies, reply.crashed = false) :
    r.failed = true ↔ ∃ reply ∈ replies, reply.result ≠ none := by
  have hfailed : r.failed = true ↔ ¬ r.message? = none := by
    unfold failed Finding.message?
    cases r.failure <;> simp
  rw [hfailed, (hr.message? hcrashed).1]
  simp

theorem returned_of_analyze (hwhole : Whole (src.events.filterMap id))
    (ha : analyze config src = .ok a)
    (h : Delivered Engine.visit src.stop (Engine.forAnalysis config) src.events given) :
    a.finding.returned = if src.stop && a.finding.failed then none
      else ((Engine.forAnalysis config).operandsReturned given).getLast? := by
  obtain ⟨a', ha', hsums⟩ := exists_analysis h
  cases ha.symm.trans ha'
  have he := unstopped_forAnalysis config
  have hremits := Engine.remits_part rfl (h.part hwhole) h.crashed
  have hfailed := hsums.failed_iff h.crashed
  rw [returned_eq_told ha h]
  split
  · next hstopped =>
    obtain ⟨hstop, hfails⟩ := Bool.and_eq_true_iff.1 hstopped
    rw [hstop] at h
    exact hremits.unheard (Engine.phase_of_stopped he h hwhole (hfailed.1 hfails))
  · next hends =>
    refine hremits.heard ?_
    cases hstop : src.stop with
    | false =>
        rw [hstop] at h
        exact Engine.phase_of_all h hwhole
    | true =>
        refine Engine.phase_of_acceptsAll he h hwhole fun r hr => ?_
        by_contra hresult
        exact hends (by rw [hstop, hfailed.2 ⟨r, hr, hresult⟩]; rfl)

/-- Whether a method stops at a failure shows in the returned value alone. -/
theorem returned_stopping {a' : Analysis} (hwhole : Whole (src.events.filterMap id))
    (ha : analyze config { src with stop := true } = .ok a)
    (ha' : analyze config { src with stop := false } = .ok a') :
    a.finding.returned = if a'.finding.failed then none else a'.finding.returned := by
  obtain ⟨given, hgiven, hsums⟩ := exists_sumsUp ha
  obtain ⟨all, hall, -⟩ := exists_sumsUp ha'
  have hsame : a'.finding.failed = a.finding.failed := by
    obtain ⟨b, hb, hb'⟩ := analyze_stopping hwhole ha'
    cases ha.symm.trans hb
    rw [hb']
    rfl
  have hreturned := @returned_of_analyze config { src with stop := true } _ _ hwhole ha hgiven
  have hreturned' := @returned_of_analyze config { src with stop := false } _ _ hwhole ha' hall
  cases hfailed : a.finding.failed with
  | true =>
      rw [hreturned, hsame, hfailed]
      rfl
  | false =>
      -- Without a failure both deliver all the events.
      have haccepts : Visitor.AcceptsAll Engine.visit (Engine.forAnalysis config) given := by
        intro r hr
        by_contra hresult
        exact Bool.false_ne_true (hfailed.symm.trans ((hsums.failed_iff hgiven.crashed).2
          ⟨r, hr, hresult⟩))
      have hevents := hgiven.eq_of_acceptsAll haccepts
      rcases hall.given with hevents' | ⟨hstop, -⟩
      · have hgivens : given = all :=
          (List.map_inj_right fun _ _ => Option.some.inj).1 (hevents.symm.trans hevents')
        rw [hreturned, hreturned', hsame, hfailed, hgivens]
        rfl
      · cases hstop

end

/-- An analysis reports the last operand that was returned, if the method gets to its end. For any
method and any configuration, take the events that were delivered, and the operands of the
instructions among them that returned one; there are none if no such instruction was applied. The
last of them is reported, also if another instruction fails after it. But nothing is reported if
the method stops at a failure: then the rest is not delivered, and its end with it. -/
theorem analysis_returns_last_operand (config : Config) (src : Source) (hsrc : src.IsMethod) :
    let e := Engine.forAnalysis config
    let given := (src.replay (Visitor.logged Engine.visit) (e, [])).1.2
    (∀ a, analyze config src = .ok a →
      a.finding.returned =
        if src.stop && a.finding.failed then none else (e.operandsReturned given).getLast?) ∧
    (e.operandsReturned given = [] ↔
      ∀ p ∈ Visitor.trace Engine.visit e given, Engine.appliesReturn p = false) ∧
    (∀ a a', analyze config { src with stop := true } = .ok a →
      analyze config { src with stop := false } = .ok a' →
        a.finding.returned = if a'.finding.failed then none else a'.finding.returned) ∧
    (none ∉ src.events → (∀ ev, some ev ∈ src.events → ev.isClosed) →
      src.events.length < Nat.pow 2 63 → ∃ a, analyze config src = .ok a) := by
  intro e given
  refine ⟨?_, Engine.operandsReturned_eq_nil_iff, fun a a' => returned_stopping hsrc.whole,
    exists_analyze⟩
  intro a ha
  obtain ⟨given', hgiven⟩ := exists_delivered_of_analyze ha
  have hlogged : given = given' := hgiven.logged []
  rw [hlogged]
  exact returned_of_analyze hsrc.whole ha hgiven

/-- Returns an int, and after that has nothing to drop. -/
def returnsThenPops : Body where
  access := .empty
  name := "f"
  descriptor := "()I"
  params := []
  code := [some (.instruction (.plain ⟨0x04⟩)), some (.instruction (.plain ⟨0xAC⟩)),
    some (.instruction (.plain ⟨0x57⟩))]

theorem analysis_returns_last_operand_pops :
    ∃ a a', analyze {} (returnsThenPops.source true) = .ok a ∧
      analyze {} (returnsThenPops.source false) = .ok a' ∧ a'.finding.failed = true ∧
      a.finding.returned = none ∧ a'.finding.returned.map Value.toText = some "I=1" := by
  have hclosed : ∀ ev ∈ returnsThenPops.events, ev.all Event.isClosed := by decide +kernel
  obtain ⟨-, -, -, hstops⟩ :=
    analysis_returns_last_operand {} (returnsThenPops.source true) (.body returnsThenPops true)
  obtain ⟨hlast, -, hstopping, hreturns⟩ :=
    analysis_returns_last_operand {} (returnsThenPops.source false) (.body returnsThenPops false)
  obtain ⟨a, ha⟩ := hstops (by decide +kernel) (fun ev hev => hclosed _ hev) (by decide +kernel)
  obtain ⟨a', ha'⟩ := hreturns (by decide +kernel) (fun ev hev => hclosed _ hev) (by decide +kernel)
  have hoperands : ((Engine.forAnalysis {}).operandsReturned
      ((returnsThenPops.source false).replay (Visitor.logged Engine.visit)
        (Engine.forAnalysis {}, [])).1.2).getLast?.map Value.toText = some "I=1" := by
    decide +kernel
  have hfailed : (analyze {} (returnsThenPops.source false)).toOption.map (·.finding.failed) =
      some true := by decide +kernel
  rw [ha'] at hfailed
  have hfails : a'.finding.failed = true := Option.some.inj hfailed
  refine ⟨a, a', ha, ha', hfails, ?_, ?_⟩
  · rw [hstopping a a' ha ha', hfails]
    rfl
  · rw [hlast a' ha']
    exact hoperands

def returnsThenPopsEntry : MethodEntry where
  name := "f"
  access := ["static"]
  descriptor := "()I"
  code := some ["iconst_1", "ireturn", "pop"]

/-- The method of a listing has returned an int before it fails, and is reported to return
nothing. -/
theorem analysis_forgets_returned :
    let src := (returnsThenPopsEntry.read "A").source
    let e := Engine.forAnalysis {}
    let given := (src.replay (Visitor.logged Engine.visit) (e, [])).1.2
    (e.operandsReturned given).map Value.toText = ["I=1"] ∧
      (analyze {} src).toOption.map (·.finding.returned) = some none := by
  decide +kernel

end OperandStack
