import OperandStack.Proofs.Depth

/-!
# Records of applied instructions

An engine that is debugging writes a record of one in so many of the instructions that it applies.
Its sampler counts them. The sampler is the one part of an engine that a declaration leaves alone,
so the count goes on from method to method.

An event asks the sampler once if it is an instruction and is applied, and else not at all
(`Engine.frontOf_samples`). `Sampler.Counts` says how often a sampler has been asked, up to where
its count wraps around, and it holds along every run.
-/

namespace OperandStack

/-! ## Samplers -/

namespace Sampler

/-- The sampler lets one record in `n` through and has been asked about `k` of them. One that lets
all through does not count. -/
structure Counts (n k : Nat) (s : Sampler) : Prop where
  every : s.every.toNat = n
  count : n ≠ 0 → s.count.toNat = k

theorem Counts.check {s : Sampler} {n k : Nat} (h : s.Counts n k) (hk : k + 1 < Nat.pow 2 32) :
    s.check.1 = decide (n = 0 ∨ n ∣ k + 1) ∧ s.check.2.Counts n (k + 1) := by
  obtain ⟨hevery, hcount⟩ := h
  by_cases hall : s.every = 0
  · have hn : n = 0 := by rw [← hevery, hall]; rfl
    rw [Sampler.check, if_pos hall]
    exact ⟨by simp [hn], hevery, fun hne => absurd hn hne⟩
  · have hn : n ≠ 0 := by
      rintro rfl
      exact hall (UInt32.toNat_inj.1 hevery)
    -- The count is still short of the number at which it wraps around.
    have hnext : (s.count + 1).toNat = k + 1 := by
      rw [UInt32.toNat_add, hcount hn]
      exact Nat.mod_eq_of_lt hk
    have hpasses : (s.count + 1) % s.every = 0 ↔ n ∣ k + 1 := by
      rw [← UInt32.toNat_inj, UInt32.toNat_mod, hnext, hevery]
      exact (Nat.dvd_iff_mod_eq_zero).symm
    rw [Sampler.check, if_neg hall]
    exact ⟨by simp [hpasses, hn], hevery, fun _ => hnext⟩

/-- Of records that are numbered from `first` on, the ones that `n` divides the numbers of; all of
them if `n` is zero. -/
def sampled {α : Type} (n first : Nat) (xs : List α) : List α :=
  (xs.zipIdx first).filterMap fun p => if n = 0 ∨ n ∣ p.2 then some p.1 else none

theorem sampled_append {α : Type} (n first : Nat) (xs ys : List α) :
    sampled n first (xs ++ ys) = sampled n first xs ++ sampled n (first + xs.length) ys := by
  simp only [sampled, List.zipIdx_append, List.filterMap_append]

theorem sampled_singleton {α : Type} (n first : Nat) (x : α) :
    sampled n first [x] = if n = 0 ∨ n ∣ first then [x] else [] := by
  by_cases h : n = 0 ∨ n ∣ first <;> simp [sampled, h]

end Sampler

/-! ## Records -/

def LogRecord.isApplied (r : LogRecord) : Bool :=
  r.level = .trace && r.message = "Applied instruction"

namespace Engine

/-- What there is to write of an instruction that took an engine from `e` to `e'`. -/
def appliedRecord (e e' : Engine) (ins : Option Instruction) : LogRecord :=
  ⟨.trace, "Applied instruction",
    [("method", e'.method.toText), ("index", Text.ofNat e.count), ("insn", instructionText ins),
      ("depth", Text.ofNat e'.view.length), ("stack", e'.view.toText)]⟩

theorem isApplied_appliedRecord (e e' : Engine) (ins : Option Instruction) :
    (appliedRecord e e' ins).isApplied = true := by
  simp [LogRecord.isApplied, appliedRecord]

section
variable {e e' : Engine} {ev : Event} {result : Option Stop} {ins : Option Instruction}

theorem filter_log (e : Engine) (level : LogLevel) (h : level ≠ .trace) (message : Text)
    (attributes : List (Text × Text)) :
    (e.log level message attributes).filter LogRecord.isApplied = [] := by
  unfold log
  split
  · simp [LogRecord.isApplied, h]
  · rfl

theorem Transition.sampler_eq (h : e.Transition ev e' result)
    (hnot : ev.isInstruction = false ∨ result ≠ none) : e'.sampler = e.sampler := by
  cases h with
  | applied => simp [Event.isInstruction] at hnot
  | _ => rfl

theorem visit_eq_applied (h : (e.visit (.instruction ins)).2.result = none) :
    ∃ s c, e.visit (.instruction ins) = (e.counted.change s c).applied e.count ins := by
  -- Of the transitions on an instruction only one is accepted.
  have htrans := e.visit_transition (.instruction ins)
  rw [h] at htrans
  generalize (e.visit (.instruction ins)).1 = e' at htrans
  generalize hnone : (none : Option Stop) = result at htrans
  cases htrans with
  | @applied s ins action c hready hperforms happly =>
      refine ⟨s, c, ?_⟩
      rewrite [visit_eq_receive (objection?_instruction hready.phase _), receive,
        receiveInstruction_eq hready.sticky,
        apply_of_applies (e := e.counted) hready.stack hperforms
          (happly.congr e.counted rfl rfl rfl)]
      rfl
  | _ => cases hnone

theorem visit_samples (hdebug : e.config.debugging = true)
    (h : (e.visit (.instruction ins)).2.result = none) :
    (e.visit (.instruction ins)).2.logs =
        (if e.sampler.check.1 then
          [appliedRecord e (e.visit (.instruction ins)).1 ins] else []) ∧
      (e.visit (.instruction ins)).1.sampler = e.sampler.check.2 := by
  obtain ⟨s, c, hvisit⟩ := visit_eq_applied h
  have hdebug' : (e.counted.change s c).config.debugging = true := hdebug
  rw [hvisit, applied, if_pos hdebug', log, if_pos hdebug']
  exact ⟨rfl, rfl⟩

/-- All other events write records of other kinds, if any. -/
theorem filter_logs_of_not_applied
    (h : ev.isInstruction = false ∨ (e.visit ev).2.result ≠ none) :
    (e.visit ev).2.logs.filter LogRecord.isApplied = [] := by
  rcases hobject : e.objection? ev with _ | f
  · rw [visit_eq_receive hobject] at h ⊢
    cases ev with
    | method m =>
        simp only [receive, receiveMethod, declare]
        split
        · rfl
        · exact e.filter_log .debug (by decide) _ _
    | parameter name access =>
        simp only [receive, receiveParameter]
        repeat' split
        all_goals rfl
    | code =>
        simp only [receive, receiveCode]
        repeat' split
        all_goals rfl
    | label name =>
        simp only [receive, receiveLabel]
        split <;> rfl
    | instruction ins =>
        have hresult : (e.receiveInstruction ins).2.result ≠ none := by
          simpa [receive, Event.isInstruction] using h
        rw [receive]
        unfold receiveInstruction at hresult ⊢
        split at hresult
        · rfl
        · unfold told at hresult ⊢
          split at hresult
          · exact absurd (applied_result _ _ _) hresult
          · exact filter_log _ .warn (by decide) _ _
          · rfl
    | finish =>
        simp only [receive, receiveFinish]
        split
        · split
          · rfl
          · exact e.filter_log .debug (by decide) _ _
        · rfl
  · simp only [visit, hobject]
    rfl

end

/-! ## Engines in front of others -/

section
variable {σ : Type}

/-- What the visitor behind an engine writes on an event, if the event gets there. -/
def logsBehind (next : Option (Visitor σ)) (st : Engine × σ) (ev : Event) : List LogRecord :=
  match next with
  | none => []
  | some visit => if st.1.admits ev then (visit st.2 ev).2.logs else []

/-- What the engine itself writes on an event, behind what the other visitor has written. -/
def ownLogs (next : Option (Visitor σ)) (st : Engine × σ) (ev : Event) : List LogRecord :=
  (frontOf next st ev).2.logs.drop (logsBehind next st ev).length

def appliedLogs (next : Option (Visitor σ)) (p : (Engine × σ) × Event) : List LogRecord :=
  (ownLogs next p.1 p.2).filter LogRecord.isApplied

/-- What there is to write of an event if it is an instruction and is applied. -/
def record? (next : Option (Visitor σ)) (p : (Engine × σ) × Event) : Option LogRecord :=
  match p.2 with
  | .instruction ins =>
      if (frontOf next p.1 p.2).2.result.isNone then
        some (appliedRecord p.1.1 (frontOf next p.1 p.2).1.1 ins)
      else none
  | _ => none

variable {next : Option (Visitor σ)} {e : Engine} {t : σ} {ev : Event}

/-- Either the engine takes the event as it would alone, or it does not get to it. -/
theorem ownLogs_cases (next : Option (Visitor σ)) (e : Engine) (t : σ) (ev : Event) :
    (frontOf next (e, t) ev).2.logs = logsBehind next (e, t) ev ++ ownLogs next (e, t) ev ∧
      ((frontOf next (e, t) ev).1.1 = (e.visit ev).1 ∧
          (frontOf next (e, t) ev).2.result = (e.visit ev).2.result ∧
          ownLogs next (e, t) ev = (e.visit ev).2.logs ∨
        (frontOf next (e, t) ev).1.1 = e ∧ (frontOf next (e, t) ev).2.result ≠ none ∧
          ownLogs next (e, t) ev = []) := by
  cases next with
  | none => exact ⟨rfl, .inl ⟨rfl, rfl, rfl⟩⟩
  | some visit =>
      rcases hobject : e.objection? ev with _ | f
      · rcases hresult : (visit t ev).2.result with _ | stop
        · simp [ownLogs, logsBehind, frontOf, behind, relay, Engine.visit, admits, hobject, hresult,
            Reply.below, Reply.followedBy]
        · simp [ownLogs, logsBehind, frontOf, behind, relay, admits, hobject, hresult, Reply.below]
      · simp [ownLogs, logsBehind, frontOf, behind, relay, Engine.visit, admits, hobject]

/-- One event: an instruction that is applied asks the sampler, and all else leaves it alone. -/
theorem frontOf_samples (hdebug : e.config.debugging = true) (next : Option (Visitor σ)) (t : σ)
    (ev : Event) :
    (record? next ((e, t), ev) = none ∧ appliedLogs next ((e, t), ev) = [] ∧
        (frontOf next (e, t) ev).1.1.sampler = e.sampler) ∨
      ∃ r, record? next ((e, t), ev) = some r ∧
        appliedLogs next ((e, t), ev) = (if e.sampler.check.1 then [r] else []) ∧
        (frontOf next (e, t) ev).1.1.sampler = e.sampler.check.2 := by
  by_cases happlied : ev.isInstruction = true ∧ (frontOf next (e, t) ev).2.result = none
  · obtain ⟨hins, hresult⟩ := happlied
    cases ev with
    | instruction ins =>
        obtain ⟨-, ⟨hengine, hsame, hlogs⟩ | ⟨-, hrefused, -⟩⟩ :=
          ownLogs_cases next e t (.instruction ins)
        · obtain ⟨hwritten, hsampler⟩ := visit_samples hdebug (hsame.symm.trans hresult)
          refine .inr ⟨_, if_pos (by rw [hresult]; rfl), ?_, by rw [hengine, hsampler]⟩
          rw [appliedLogs, hlogs, hwritten, hengine]
          split
          · simp [isApplied_appliedRecord]
          · rfl
        · exact absurd hresult hrefused
    | _ => cases hins
  · have hnot : ev.isInstruction = false ∨ (frontOf next (e, t) ev).2.result ≠ none :=
      (Classical.not_and_iff_not_or_not.1 happlied).imp_left Bool.eq_false_iff.2
    have hrecord : record? next ((e, t), ev) = none := by
      cases ev with
      | instruction ins =>
          exact if_neg (by simpa [Event.isInstruction] using hnot)
      | _ => rfl
    refine .inl ⟨hrecord, ?_⟩
    unfold appliedLogs
    obtain ⟨-, ⟨hengine, hsame, hlogs⟩ | ⟨hengine, -, hlogs⟩⟩ := ownLogs_cases next e t ev
    · rw [hsame] at hnot
      rw [hlogs, hengine]
      exact ⟨filter_logs_of_not_applied hnot, (e.visit_transition ev).sampler_eq hnot⟩
    · rw [hlogs, hengine]
      exact ⟨rfl, rfl⟩

/-! ## Runs -/

def records (next : Option (Visitor σ)) (st : Engine × σ) (evs : List Event) : List LogRecord :=
  ((frontOf next).trace st evs).filterMap (record? next)

theorem records_cons (next : Option (Visitor σ)) (st : Engine × σ) (ev : Event)
    (evs : List Event) :
    records next st (ev :: evs) =
      (record? next (st, ev)).toList ++ records next (frontOf next st ev).1 evs := by
  simp only [records, Visitor.trace, List.filterMap_cons]
  cases record? next (st, ev) <;> rfl

theorem frontOf_config (next : Option (Visitor σ)) (e : Engine) (t : σ) (ev : Event) :
    (frontOf next (e, t) ev).1.1.config = e.config := by
  rcases frontOf_cases next e t ev with ⟨hengine, -⟩ | ⟨hengine, -⟩
  · rw [hengine]
    exact (e.visit_transition ev).config
  · rw [hengine]

/-- The engine is debugging, and its sampler has been asked about `k` records. -/
structure Samples (n k : Nat) (e : Engine) : Prop where
  debugging : e.config.debugging = true
  counts : e.sampler.Counts n k

variable {n k : Nat} {evs : List Event} {config : Config}

/-- One event, as long as the count does not wrap around. -/
theorem Samples.frontOf (h : Samples n k e)
    (hk : k + (record? next ((e, t), ev)).toList.length < Nat.pow 2 32) :
    appliedLogs next ((e, t), ev) = Sampler.sampled n (k + 1) (record? next ((e, t), ev)).toList ∧
      Samples n (k + (record? next ((e, t), ev)).toList.length)
        (Engine.frontOf next (e, t) ev).1.1 := by
  have hdebug : (Engine.frontOf next (e, t) ev).1.1.config.debugging = true := by
    rw [frontOf_config]
    exact h.debugging
  rcases frontOf_samples h.debugging next t ev with
    ⟨hnone, hlogs, hsampler⟩ | ⟨r, hr, hlogs, hsampler⟩
  · rw [hnone, hlogs]
    refine ⟨rfl, hdebug, ?_⟩
    rw [hsampler]
    exact h.counts
  · rw [hr] at hk ⊢
    obtain ⟨hpasses, hcounts⟩ := h.counts.check hk
    rw [hlogs, hpasses, Option.toList_some, Sampler.sampled_singleton]
    refine ⟨by simp, hdebug, ?_⟩
    rw [hsampler]
    exact hcounts

theorem Samples.after (h : Samples n k e)
    (hcount : k + (records next (e, t) evs).length < Nat.pow 2 32) :
    ((Engine.frontOf next).trace (e, t) evs).flatMap (appliedLogs next) =
        Sampler.sampled n (k + 1) (records next (e, t) evs) ∧
      Samples n (k + (records next (e, t) evs).length)
        ((Engine.frontOf next).after (e, t) evs).1 := by
  induction evs generalizing e t k with
  | nil => exact ⟨rfl, h⟩
  | cons ev evs ih =>
      rw [records_cons, List.length_append] at hcount
      have hfirst : k + (record? next ((e, t), ev)).toList.length < Nat.pow 2 32 := by omega
      obtain ⟨hlogs, hnext⟩ := h.frontOf hfirst
      rw [← Nat.add_assoc] at hcount
      obtain ⟨hrest, hafter⟩ := ih hnext hcount
      rw [records_cons, Sampler.sampled_append, Visitor.trace, List.flatMap_cons, hlogs,
        List.length_append, ← Nat.add_assoc, Nat.add_right_comm k 1]
      exact ⟨congrArg _ hrest, hafter⟩

theorem samples_new (hdebug : config.debugging = true) :
    Samples config.debugEvery.toNat 0 (new config) :=
  ⟨hdebug, rfl, fun _ => rfl⟩

theorem Samples.at_position {front rest : List ((Engine × σ) × Event)} {p : (Engine × σ) × Event}
    (h : Samples n 0 e) (hcount : (records next (e, t) evs).length < Nat.pow 2 32)
    (hrun : (Engine.frontOf next).trace (e, t) evs = front ++ p :: rest) :
    p.1.1.config.debugging = true ∧
      appliedLogs next p =
        Sampler.sampled n ((front.filterMap (record? next)).length + 1)
          (record? next p).toList := by
  obtain ⟨before, -, -, hfront, hstate⟩ := Visitor.exists_of_trace_eq hrun
  -- The records in front of the position are no more than all of them.
  have hsplit : (records next (e, t) evs).length = (records next (e, t) before).length +
      ((record? next p).toList.length + (rest.filterMap (record? next)).length) := by
    rw [records, hrun, hfront, List.filterMap_append, List.length_append, List.filterMap_cons]
    cases record? next p <;> simp [records, Nat.add_comm]
  have hbefore : 0 + (records next (e, t) before).length < Nat.pow 2 32 := by omega
  have hsamples := (h.after hbefore).2
  rw [Nat.zero_add, ← hstate] at hsamples
  refine ⟨hsamples.debugging, ?_⟩
  have hnext : (records next (e, t) before).length + (record? next p).toList.length <
      Nat.pow 2 32 := by omega
  rw [hfront]
  exact (hsamples.frontOf (t := p.1.2) hnext).1

/-- An engine that is debugging writes a record of every `n`-th instruction that it applies, counted
from its creation on. The records among what it writes are those of the instructions with the
numbers `n`, `2 * n` and so on, and of all instructions if `n` is zero, whatever the events are and
whichever visitor is behind the engine. Each is written when the instruction is applied. No other
event, declarations among them, leads to a record or changes the count. -/
theorem every_nth_application_is_recorded (next : Option (Visitor σ)) (config : Config)
    (hdebug : config.debugging = true) (t : σ) (evs : List Event)
    (hcount : (records next (new config, t) evs).length < Nat.pow 2 32) :
    let n := config.debugEvery.toNat
    let run := (frontOf next).trace (new config, t) evs
    run.flatMap (appliedLogs next) =
        ((records next (new config, t) evs).zipIdx 1).filterMap
          (fun p => if n = 0 ∨ n ∣ p.2 then some p.1 else none) ∧
      ∀ front p rest, run = front ++ p :: rest →
        (frontOf next p.1 p.2).2.logs = logsBehind next p.1 p.2 ++ ownLogs next p.1 p.2 ∧
        (∀ r, record? next p = some r → appliedLogs next p =
          if n = 0 ∨ n ∣ (front.filterMap (record? next)).length + 1 then [r] else []) ∧
        (record? next p = none → appliedLogs next p = [] ∧
          (frontOf next p.1 p.2).1.1.sampler = p.1.1.sampler) := by
  intro n run
  have hnew := samples_new hdebug
  refine ⟨(hnew.after (k := 0) (by omega)).1, fun front p rest hrun => ?_⟩
  obtain ⟨hdebug', hlogs⟩ := hnew.at_position hcount hrun
  refine ⟨(ownLogs_cases next p.1.1 p.1.2 p.2).1, fun r hr => ?_, fun hnone => ?_⟩
  · rw [hlogs, hr, Option.toList_some, Sampler.sampled_singleton]
  · rcases frontOf_samples hdebug' next p.1.2 p.2 with ⟨-, hquiet, hsampler⟩ | ⟨r, hr, -⟩
    · exact ⟨hquiet, hsampler⟩
    · cases hnone.symm.trans hr

end

/-- Refuses every fourth event that it is given, and writes of each as if it had applied an
instruction. -/
def impostor : Visitor Nat := fun k _ =>
  (k + 1,
    { result := if k % 4 = 3 then some (.fault .tooManyParameters) else none
      logs := [⟨.trace, "Applied instruction", []⟩] })

/-- Two methods, of which the first fails. The second is declared twice, since the impostor refuses
the one declaration. -/
def interrupted : List Event :=
  let push := Event.instruction (some (.plain ⟨0x04⟩))
  let pop := Event.instruction (some (.plain ⟨0x57⟩))
  [push, .method { name := "f", descriptor := "()V" }, .code, push, push, push, pop, pop, pop, pop,
    push, .method { name := "g", descriptor := "()V" },
    .method { name := "g", descriptor := "()V" }, .code, push, push, .finish, .finish]

/-- Six instructions are applied, the last two of them in the second method. -/
theorem every_nth_application_is_recorded_interrupted :
    let config : Config := { debug := true, debugEvery := 2 }
    let run := (frontOf (some impostor)).trace (new config, 0) interrupted
    (records (some impostor) (new config, 0) interrupted).length = 6 ∧
      (run.flatMap (appliedLogs (some impostor))).map (·.attributes.take 2) =
        ([[("method", "f()V"), ("index", "1")], [("method", "f()V"), ("index", "3")],
          [("method", "g()V"), ("index", "1")]] : List (List (Text × Text))) := by
  intro config run
  have hcount : (records (some impostor) (new config, 0) interrupted).length = 6 := by
    decide +kernel
  obtain ⟨hwritten, -⟩ := every_nth_application_is_recorded (some impostor) config rfl 0 interrupted
    (by rw [hcount]; decide)
  refine ⟨hcount, ?_⟩
  rw [hwritten]
  decide +kernel

end Engine

end OperandStack
