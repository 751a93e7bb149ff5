import OperandStack.Proofs.Observers
import OperandStack.Proofs.Shape

/-!
# Delivering methods

A delivery ends with an event that crashes, or with the first one that fails if it is to stop there.
So a crash is always the last of the replies, and it is what the delivery comes to
(`outcome_deliver_eq_crash_iff`). Where there is none, the replies are those to a first part of the
events (`exists_delivered`).

Two visitors come to the same when they reply alike, until a fault brings both of them into states
in which they refuse everything (`SameOutcome.deliver`). For an engine that is `Engine.Halted`: an
engine that has been stopped refuses whatever is left of the method.
-/

namespace OperandStack

open Protocol

/-! ## Methods -/

/-- The sources of methods are listed methods, and bodies, which may stop at a failure or not. -/
inductive Source.IsMethod : Source → Prop
  | listed (m : ListedMethod) : IsMethod m.source
  | body (b : Body) (stop : Bool) : IsMethod (b.source stop)

theorem filterMap_map_some (evs : List Event) : (evs.map some).filterMap id = evs := by
  rw [List.filterMap_map]
  exact List.filterMap_some

theorem Protocol.Whole.begins {evs : List Event} (h : Whole evs) :
    ∃ m inner, evs = .method m :: inner ++ [.finish] ∧ ∀ ev ∈ inner, ∀ m', ev ≠ .method m' := by
  have hparams {ev : Event} (hev : ev.isParameter) (m' : MethodInfo) : ev ≠ .method m' := by
    rintro rfl
    cases hev
  have helements {ev : Event} (hev : ev.isElement) (m' : MethodInfo) : ev ≠ .method m' := by
    rintro rfl
    cases hev
  cases h with
  | @declaration m params hp => exact ⟨m, params, rfl, fun ev hev => hparams (hp ev hev)⟩
  | @body m params elements hp he =>
      refine ⟨m, params ++ .code :: elements, by simp, ?_⟩
      intro ev hev
      rcases List.mem_append.1 hev with hev | hev
      · exact hparams (hp ev hev)
      · rcases List.mem_cons.1 hev with rfl | hev
        · exact nofun
        · exact helements (he ev hev)

/-- No other method is declared in what has been delivered of a method. -/
theorem Protocol.Part.begins {evs : List Event} (h : Part evs) :
    ∃ m rest, evs = .method m :: rest ∧ ∀ ev ∈ rest, ∀ m', ev ≠ .method m' := by
  obtain ⟨hne, whole, hwhole, hpart⟩ := h
  obtain ⟨m, inner, rfl, hinner⟩ := hwhole.begins
  rw [List.cons_append] at hpart
  rcases List.prefix_cons_iff.1 hpart with rfl | ⟨rest, rfl, hrest⟩
  · exact absurd rfl hne
  · refine ⟨m, rest, rfl, fun ev hev => ?_⟩
    rcases List.mem_append.1 (hrest.subset hev) with hmem | hmem
    · exact hinner ev hmem
    · rw [List.mem_singleton.1 hmem]
      exact nofun

theorem Body.whole (b : Body) : Whole (b.events.filterMap id) := by
  have hevents : b.events.filterMap id =
      .method { access := b.access, name := b.name, descriptor := b.descriptor } ::
        b.params.map (fun name => .parameter name .empty) ++
        .code :: (b.code.filterMap id).map CodeElement.event ++ [.finish] := by
    simp [Body.events, List.filterMap_append, List.filterMap_map, List.map_filterMap]
  rw [hevents]
  refine .body ?_ ?_
  · intro ev hev
    obtain ⟨name, -, rfl⟩ := List.mem_map.1 hev
    rfl
  · intro ev hev
    obtain ⟨element, -, rfl⟩ := List.mem_map.1 hev
    cases element <;> rfl

namespace Source.IsMethod

variable {src : Source}

theorem whole (h : src.IsMethod) : Whole (src.events.filterMap id) := by
  cases h with
  | listed m =>
      have hevents : m.source.events.filterMap id = m.events := filterMap_map_some m.events
      rw [hevents]
      exact m.whole
  | body b stop => exact b.whole

/-- A method is declared once, at the beginning, and its end comes last. -/
theorem begins (h : src.IsMethod) :
    ∃ m inner, src.events = some (.method m) :: inner ++ [some .finish] ∧
      ∀ ev, some ev ∈ inner → ∀ m', ev ≠ .method m' := by
  obtain ⟨m, inner, hevents⟩ :
      ∃ m inner, src.events = some (.method m) :: inner ++ [some .finish] := by
    cases h with
    | listed m =>
        obtain ⟨info, inner, hevents, -⟩ := m.whole.begins
        exact ⟨info, inner.map some, by simp [ListedMethod.source, hevents]⟩
    | body b stop => exact ⟨_, _, rfl⟩
  refine ⟨m, inner, hevents, ?_⟩
  obtain ⟨m', inner', hwhole, hinner⟩ := h.whole.begins
  have hparts : src.events.filterMap id = .method m :: inner.filterMap id ++ [.finish] := by
    rw [hevents]
    simp
  have hsame : inner' = inner.filterMap id :=
    List.append_cancel_right (List.cons.inj (hwhole.symm.trans hparts)).2
  intro ev hev
  refine hinner ev ?_
  rw [hsame]
  exact List.mem_filterMap.2 ⟨some ev, hev, rfl⟩

end Source.IsMethod

/-! ## What deliveries come to -/

def Reply.ends (stop : Bool) (r : Reply) : Bool := r.crashed || stop && r.result.isSome

section
variable {σ τ : Type} {visit : Visitor σ} {visit' : Visitor τ} {stop : Bool} {s : σ} {t : τ}
  {ev : Event} {evs : List (Option Event)} {r : Reply} {rs : List Reply} {c : Crash} {f : Fault}

theorem Visitor.replies_append (visit : Visitor σ) (s : σ) (evs rest : List Event) :
    visit.replies s (evs ++ rest) =
      visit.replies s evs ++ visit.replies (visit.after s evs) rest := by
  induction evs generalizing s with
  | nil => rfl
  | cons ev evs ih => simp only [List.cons_append, replies, after_cons, ih]

theorem Visitor.mem_replies_snoc (visit : Visitor σ) (s : σ) (evs : List Event) (ev : Event) :
    (visit (visit.after s evs) ev).2 ∈ visit.replies s (evs ++ [ev]) := by
  rw [replies_append]
  exact List.mem_append_right _ (List.mem_singleton_self _)

theorem crashed_iff : r.crashed ↔ ∃ c, r.result = some (.crash c) := by
  unfold Reply.crashed
  rcases r.result with _ | _ | c <;> simp

theorem findSome?_ne_crash (h : ∀ r ∈ rs, r.crashed = false) (c : Crash) :
    rs.findSome? (·.result) ≠ some (.crash c) := by
  intro hc
  obtain ⟨r, hr, hresult⟩ := List.exists_of_findSome?_eq_some hc
  cases (h r hr).symm.trans (crashed_iff.2 ⟨c, hresult⟩)

theorem deliver_cons (visit : Visitor σ) (stop : Bool) (s : σ) (ev : Event)
    (rest : List (Option Event)) :
    deliver visit stop s (some ev :: rest) =
      if (visit s ev).2.ends stop then ((visit s ev).1, [(visit s ev).2])
      else ((deliver visit stop (visit s ev).1 rest).1,
        (visit s ev).2 :: (deliver visit stop (visit s ev).1 rest).2) := by
  rcases hresult : (visit s ev).2.result with _ | f | c
  · simp [deliver, Reply.ends, Reply.crashed, hresult]
  · cases stop <;> simp [deliver, Reply.ends, Reply.crashed, hresult]
  · simp [deliver, Reply.ends, Reply.crashed, hresult]

theorem outcome_of_getLast? (h : rs.getLast? = some r) (hr : r.result = some (.crash c)) :
    outcome rs = some (.crash c) := by
  obtain ⟨result, hooks, logs⟩ := r
  cases hr
  simp [outcome, h]

theorem outcome_of_not_crashed (h : ∀ r ∈ rs, r.crashed = false) :
    outcome rs = rs.findSome? (·.result) := by
  unfold outcome
  split
  · next c hooks logs hlast => cases h _ (List.mem_of_getLast? hlast)
  · rfl

theorem getLast?_deliver (hr : r ∈ (deliver visit stop s evs).2) (hcrashed : r.crashed) :
    (deliver visit stop s evs).2.getLast? = some r := by
  induction evs generalizing s with
  | nil => cases hr
  | cons ev evs ih =>
      cases ev with
      | none =>
          cases List.mem_singleton.1 hr
          rfl
      | some ev =>
          rw [deliver_cons] at hr ⊢
          split at hr
          · next hends =>
            cases List.mem_singleton.1 hr
            rw [if_pos hends]
            rfl
          · next hends =>
            rw [if_neg hends]
            rcases List.mem_cons.1 hr with rfl | hr
            · simp [Reply.ends, hcrashed] at hends
            · rw [List.getLast?_cons, ih hr]
              rfl

theorem outcome_deliver_eq_crash_iff :
    outcome (deliver visit stop s evs).2 = some (.crash c) ↔
      ∃ r ∈ (deliver visit stop s evs).2, r.result = some (.crash c) := by
  constructor
  · intro h
    unfold outcome at h
    split at h
    · next c' hooks logs hlast => exact ⟨_, List.mem_of_getLast? hlast, h⟩
    · obtain ⟨r, hr, hresult⟩ := List.exists_of_findSome?_eq_some h
      exact ⟨r, hr, hresult⟩
  · rintro ⟨r, hr, hresult⟩
    exact outcome_of_getLast? (getLast?_deliver hr (crashed_iff.2 ⟨c, hresult⟩)) hresult

theorem outcome_cons_eq_crash (r : Reply)
    (h : outcome (deliver visit stop s evs).2 = some (.crash c)) :
    outcome (r :: (deliver visit stop s evs).2) = some (.crash c) := by
  obtain ⟨r', hr', hresult⟩ := outcome_deliver_eq_crash_iff.1 h
  refine outcome_of_getLast? (r := r') ?_ hresult
  rw [List.getLast?_cons, getLast?_deliver hr' (crashed_iff.2 ⟨c, hresult⟩)]
  rfl

theorem outcome_cons_eq_fault (hr : r.result = some (.fault f))
    (h : ∀ c, outcome (deliver visit stop s evs).2 ≠ some (.crash c)) :
    outcome (r :: (deliver visit stop s evs).2) = some (.fault f) := by
  have hcrashed : ∀ r' ∈ r :: (deliver visit stop s evs).2, r'.crashed = false := by
    intro r' hr'
    rw [← Bool.not_eq_true, crashed_iff]
    rintro ⟨c, hresult⟩
    rcases List.mem_cons.1 hr' with rfl | hmem
    · cases hr.symm.trans hresult
    · exact h c (outcome_deliver_eq_crash_iff.2 ⟨r', hmem, hresult⟩)
  rw [outcome_of_not_crashed hcrashed, List.findSome?_cons, hr]

theorem outcome_cons_eq_crash_iff (hr : r.result = some (.fault f)) :
    outcome (r :: (deliver visit stop s evs).2) = some (.crash c) ↔
      outcome (deliver visit stop s evs).2 = some (.crash c) := by
  refine ⟨fun h => ?_, outcome_cons_eq_crash r⟩
  rcases hrest : outcome (deliver visit stop s evs).2 with _ | f' | c'
  · cases h.symm.trans (outcome_cons_eq_fault hr (by simp [hrest]))
  · cases h.symm.trans (outcome_cons_eq_fault hr (by simp [hrest]))
  · exact (outcome_cons_eq_crash r hrest).symm.trans h

/-- What a delivery without a crash has delivered: all of the events, or those up to the first that
failed. -/
structure Delivered (visit : Visitor σ) (stop : Bool) (s : σ) (evs : List (Option Event))
    (given : List Event) : Prop where
  run : deliver visit stop s evs = (visit.after s given, visit.replies s given)
  logged (log : List Event) : (deliver visit.logged stop (s, log) evs).1.2 = log ++ given
  crashed : ∀ r ∈ visit.replies s given, r.crashed = false
  given : evs = given.map some ∨ stop = true ∧ ∃ front ev rest f,
    given = front ++ [ev] ∧ evs = given.map some ++ rest ∧ visit.AcceptsAll s front ∧
      (visit (visit.after s front) ev).2.result = some (.fault f)

theorem logged_apply (visit : Visitor σ) (s : σ) (log : List Event) (ev : Event) :
    visit.logged (s, log) ev = (((visit s ev).1, log ++ [ev]), (visit s ev).2) := rfl

theorem delivered_of_fault (hf : (visit s ev).2.result = some (.fault f))
    (rest : List (Option Event)) : Delivered visit true s (some ev :: rest) [ev] := by
  have hcrashed : (visit s ev).2.crashed = false := by simp [Reply.crashed, hf]
  have hends : (visit s ev).2.ends true := by simp [Reply.ends, hf]
  refine ⟨?_, fun log => ?_, by simpa [Visitor.replies] using hcrashed,
    .inr ⟨rfl, [], ev, rest, f, rfl, rfl, List.forall_mem_nil _, hf⟩⟩
  · rw [deliver_cons, if_pos hends]
    rfl
  · rw [deliver_cons, logged_apply, if_pos hends]

theorem Delivered.cons {given : List Event} (h : Delivered visit stop (visit s ev).1 evs given)
    (hends : (visit s ev).2.ends stop = false) :
    Delivered visit stop s (some ev :: evs) (ev :: given) := by
  obtain ⟨hcrashed, hgoes⟩ : (visit s ev).2.crashed = false ∧
      (stop && (visit s ev).2.result.isSome) = false := Bool.or_eq_false_iff.1 hends
  constructor
  · rw [deliver_cons, hends, h.run]
    rfl
  · intro log
    rw [deliver_cons, logged_apply, hends]
    exact (h.logged (log ++ [ev])).trans (List.append_assoc _ _ _)
  · exact List.forall_mem_cons.2 ⟨hcrashed, h.crashed⟩
  · rcases h.given with hall | ⟨hstop, front, ev', rest, f, hfront, hevs, haccepts, hf⟩
    · exact .inl (by rw [hall, List.map_cons])
    · have haccepted : (visit s ev).2.result = none := by simpa [hstop] using hgoes
      refine .inr ⟨hstop, ev :: front, ev', rest, f, ?_, ?_, ?_, hf⟩
      · rw [hfront, List.cons_append]
      · rw [hevs, List.map_cons, List.cons_append]
      · exact (visit.acceptsAll_cons s ev front).2 ⟨haccepted, haccepts⟩

theorem exists_delivered (h : ∀ c, outcome (deliver visit stop s evs).2 ≠ some (.crash c)) :
    ∃ given, Delivered visit stop s evs given := by
  induction evs generalizing s with
  | nil => exact ⟨[], rfl, fun log => (List.append_nil log).symm, List.forall_mem_nil _, .inl rfl⟩
  | cons ev evs ih =>
      cases ev with
      | none => exact absurd rfl (h .codeElement)
      | some ev =>
          rw [deliver_cons] at h
          cases hends : (visit s ev).2.ends stop with
          | true =>
              rw [hends] at h
              rcases hresult : (visit s ev).2.result with _ | f | c
              · simp [Reply.ends, Reply.crashed, hresult] at hends
              · obtain rfl : stop = true := by
                  simpa [Reply.ends, Reply.crashed, hresult] using hends
                exact ⟨[ev], delivered_of_fault hresult evs⟩
              · exact absurd ((outcome_singleton _).trans hresult) (h c)
          | false =>
              rw [hends] at h
              obtain ⟨given, hgiven⟩ := ih fun c hc => h c (outcome_cons_eq_crash _ hc)
              exact ⟨ev :: given, hgiven.cons hends⟩

theorem Delivered.part {given : List Event} (h : Delivered visit stop s evs given)
    (hwhole : Whole (evs.filterMap id)) : Part given := by
  rcases h.given with rfl | ⟨-, front, ev, rest, f, rfl, rfl, -, -⟩
  · rw [filterMap_map_some] at hwhole
    refine ⟨?_, given, hwhole, List.prefix_rfl⟩
    cases hwhole <;> simp
  · rw [List.filterMap_append, filterMap_map_some] at hwhole
    exact ⟨by simp, _, hwhole, List.prefix_append _ _⟩

theorem Delivered.eq_of_acceptsAll {given : List Event} (h : Delivered visit stop s evs given)
    (haccepts : visit.AcceptsAll s given) : evs = given.map some := by
  rcases h.given with hall | ⟨-, front, ev, rest, f, rfl, -, -, hf⟩
  · exact hall
  · cases (haccepts _ (visit.mem_replies_snoc s front ev)).symm.trans hf

/-! ## Two visitors -/

/-- In these states a visitor refuses events of some kind and gets into no other states by them. -/
def Visitor.Refuses (visit : Visitor σ) (kind : Event → Prop) (D : σ → Prop) : Prop :=
  ∀ s ev, kind ev → D s → D (visit s ev).1 ∧ ∃ f, (visit s ev).2.result = some (.fault f)

/-- A visitor that refuses everything crashes over something that is no event and nothing else. -/
theorem Visitor.Refuses.outcome_eq_crash_iff {kind : Event → Prop} {D : σ → Prop}
    (h : visit.Refuses kind D) (hs : D s) (hevs : ∀ ev, some ev ∈ evs → kind ev) :
    outcome (deliver visit false s evs).2 = some (.crash c) ↔ c = .codeElement ∧ none ∈ evs := by
  induction evs generalizing s with
  | nil => simp [deliver, outcome]
  | cons ev evs ih =>
      cases ev with
      | none =>
          have hcrash : outcome [Reply.crash .codeElement] = some (.crash .codeElement) := rfl
          simp [deliver, hcrash, eq_comm]
      | some ev =>
          obtain ⟨hnext, f, hf⟩ := h s ev (hevs ev (by simp)) hs
          have hends : (visit s ev).2.ends false = false := by
            simp [Reply.ends, Reply.crashed, hf]
          have hrest := ih hnext fun ev hev => hevs ev (by simp [hev])
          have hmem : none ∈ some ev :: evs ↔ none ∈ evs := by simp
          rw [deliver_cons, hends, hmem, ← hrest]
          exact outcome_cons_eq_crash_iff hf

/-- Replies with the same result, after which the visitors are in step or, if it was a fault, each
where it refuses everything. -/
structure RepliesAgree (R : σ → τ → Prop) (D : σ → Prop) (D' : τ → Prop) (r : σ × Reply)
    (r' : τ × Reply) : Prop where
  result : r'.2.result = r.2.result
  accepted : r.2.result = none → R r.1 r'.1
  faulted (f : Fault) : r.2.result = some (.fault f) → R r.1 r'.1 ∨ D r.1 ∧ D' r'.1

/-- Deliveries that come to the same, and leave the visitors in step if that is no failure. -/
structure SameOutcome (R : σ → τ → Prop) (run : σ × List Reply) (run' : τ × List Reply) : Prop where
  outcome : outcome run'.2 = outcome run.2
  inStep : OperandStack.outcome run.2 = none → R run.1 run'.1

section
variable {R : σ → τ → Prop} {D : σ → Prop} {D' : τ → Prop} {kind : Event → Prop}

theorem RepliesAgree.cons (h : RepliesAgree R D D' (visit s ev) (visit' t ev))
    (hD : visit.Refuses kind D) (hD' : visit'.Refuses kind D')
    (hevs : ∀ ev, some ev ∈ evs → kind ev)
    (hrest : R (visit s ev).1 (visit' t ev).1 →
      SameOutcome R (deliver visit stop (visit s ev).1 evs)
        (deliver visit' stop (visit' t ev).1 evs)) :
    SameOutcome R (deliver visit stop s (some ev :: evs))
      (deliver visit' stop t (some ev :: evs)) := by
  have hsame : (visit' t ev).2.ends stop = (visit s ev).2.ends stop := by
    simp only [Reply.ends, Reply.crashed, h.result]
  rw [deliver_cons, deliver_cons, hsame]
  cases hends : (visit s ev).2.ends stop with
  | true =>
      constructor
      · exact (outcome_singleton _).trans (h.result.trans (outcome_singleton _).symm)
      · intro hnone
        exact h.accepted ((outcome_singleton _).symm.trans hnone)
  | false =>
      have hr' := h.result
      rcases hr : (visit s ev).2.result with _ | f | c
      · rw [hr] at hr'
        have hboth := hrest (h.accepted hr)
        constructor
        · exact (outcome_cons_of_accepted hr' _).trans
            (hboth.outcome.trans (outcome_cons_of_accepted hr _).symm)
        · intro hnone
          exact hboth.inStep ((outcome_cons_of_accepted hr _).symm.trans hnone)
      · rw [hr] at hr'
        obtain rfl : stop = false := by simpa [Reply.ends, Reply.crashed, hr] using hends
        -- Only a crash could still outweigh the fault, and it would do so on both sides.
        have hcrash (c : Crash) :
            outcome (deliver visit' false (visit' t ev).1 evs).2 = some (.crash c) ↔
              outcome (deliver visit false (visit s ev).1 evs).2 = some (.crash c) := by
          rcases h.faulted f hr with hstep | ⟨hs, ht⟩
          · rw [(hrest hstep).outcome]
          · rw [hD.outcome_eq_crash_iff hs hevs, hD'.outcome_eq_crash_iff ht hevs]
        by_cases hcrashes :
            ∃ c, outcome (deliver visit false (visit s ev).1 evs).2 = some (.crash c)
        · obtain ⟨c, hc⟩ := hcrashes
          have hleft := outcome_cons_eq_crash (visit s ev).2 hc
          constructor
          · exact (outcome_cons_eq_crash _ ((hcrash c).2 hc)).trans hleft.symm
          · exact fun hnone => by cases hleft.symm.trans hnone
        · have hleft := outcome_cons_eq_fault hr (not_exists.1 hcrashes)
          constructor
          · refine (outcome_cons_eq_fault hr' fun c hc => ?_).trans hleft.symm
            exact hcrashes ⟨c, (hcrash c).1 hc⟩
          · exact fun hnone => by cases hleft.symm.trans hnone
      · simp [Reply.ends, Reply.crashed, hr] at hends

/-- Visitors that are in step come to the same. -/
theorem SameOutcome.deliver (hD : visit.Refuses kind D) (hD' : visit'.Refuses kind D')
    (hstep : ∀ s t ev, kind ev → R s t → RepliesAgree R D D' (visit s ev) (visit' t ev)) (h : R s t)
    (hevs : ∀ ev, some ev ∈ evs → kind ev) :
    SameOutcome R (deliver visit stop s evs) (deliver visit' stop t evs) := by
  induction evs generalizing s t with
  | nil => exact ⟨rfl, fun _ => h⟩
  | cons ev evs ih =>
      cases ev with
      | none => exact ⟨rfl, fun hnone => nomatch hnone⟩
      | some ev =>
          have hrest : ∀ ev, some ev ∈ evs → kind ev := fun ev hev => hevs ev (by simp [hev])
          have hagrees := hstep s t ev (hevs ev (by simp)) h
          exact hagrees.cons hD hD' hrest fun hnext => ih hnext hrest

end

end

/-! ## Engines that have been stopped -/

namespace Engine

/-- An engine that has been stopped, with a stack if it is in a body. -/
structure Halted (e : Engine) : Prop where
  sticky : e.sticky.isSome
  stack : e.phase = .inCode → e.stack.isSome

variable {e e' : Engine} {ev : Event}

theorem Halted.visit (h : e.Halted) (hev : ∀ m, ev ≠ .method m) :
    (e.visit ev).1.Halted ∧ (e.visit ev).1.count = e.count ∧
      ∃ f, (e.visit ev).2.result = some (.fault f) := by
  obtain ⟨f, hf⟩ := Option.isSome_iff_exists.1 h.sticky
  have hrefused (g : Fault) (hvisit : e.visit ev = (e, .refuse g)) :
      (e.visit ev).1.Halted ∧ (e.visit ev).1.count = e.count ∧
        ∃ f, (e.visit ev).2.result = some (.fault f) := by
    rw [hvisit]
    exact ⟨h, rfl, g, rfl⟩
  rcases hobject : e.objection? ev with _ | g
  · have hvisit := visit_eq_receive hobject
    cases ev with
    | method m => exact absurd rfl (hev m)
    | parameter name access =>
        exact hrefused f (hvisit.trans (by simp only [receive, receiveParameter, hf]))
    | code => exact hrefused f (hvisit.trans (by simp only [receive, receiveCode, hf]))
    | label name => exact hrefused f (hvisit.trans (by simp only [receive, receiveLabel, hf]))
    | instruction ins =>
        exact hrefused f (hvisit.trans (by simp only [receive, receiveInstruction, hf]))
    | finish =>
        have hresult : e.sticky.map Stop.fault = some (.fault f) := by rw [hf]; rfl
        rw [hvisit, receive]
        unfold receiveFinish
        split
        · next hphase =>
          obtain ⟨s, hs⟩ := Option.isSome_iff_exists.1 (h.stack hphase)
          rw [hs]
          exact ⟨⟨h.sticky, by rintro ⟨⟩⟩, rfl, f, hresult⟩
        · exact ⟨⟨h.sticky, by rintro ⟨⟩⟩, rfl, f, hresult⟩
  · exact hrefused g (by simp only [Engine.visit, hobject])

theorem refuses_halted : Visitor.Refuses Engine.visit (fun ev => ∀ m, ev ≠ .method m) Halted :=
  fun _ _ hev h => ⟨(h.visit hev).1, (h.visit hev).2.2⟩

/-- A fault stops an engine, unless it is about the order of events. -/
theorem Promises.halted {f : Fault} (h : e.Promises) (hobject : e.objection? ev = none)
    (hf : (e.visit ev).2.result = some (.fault f)) : (e.visit ev).1.Halted := by
  have htrans := e.visit_transition ev
  rw [hf] at htrans
  generalize (e.visit ev).1 = e' at htrans
  have hkept (sticky : Option Fault) (hsticky : sticky.isSome) : { e with sticky }.Halted :=
    ⟨hsticky, fun hphase => (h.coded hphase).1⟩
  generalize hresult : some (Stop.fault f) = result at htrans
  cases htrans with
  | refused hf =>
      rcases hf with hf | hf
      · cases hobject.symm.trans hf
      · exact ⟨Option.isSome_of_eq_some hf, fun hphase => (h.coded hphase).1⟩
  | misdeclared => exact ⟨rfl, nofun⟩
  | surplus => exact hkept _ rfl
  | unplaced => exact hkept _ rfl
  | faulted => exact ⟨rfl, fun hphase => (h.coded hphase).1⟩
  | finished =>
      obtain ⟨g, hg, -⟩ := Option.map_eq_some_iff.1 hresult.symm
      exact ⟨Option.isSome_of_eq_some hg, nofun⟩
  | _ => cases hresult

/-! ## From one end of a method to the other -/

theorem unstopped_new (config : Config) : (new config).Unstopped .outside :=
  ⟨promises_new config, rfl, rfl⟩

section
variable {p q : Position} {evs : List Event}

theorem Unstopped.after (h : e.Unstopped p) (hrun : p.run evs = some q)
    (haccepts : Visitor.AcceptsAll Engine.visit e evs) :
    (Visitor.after Engine.visit e evs).Unstopped q := by
  induction evs generalizing e p with
  | nil =>
      cases hrun
      exact h
  | cons ev evs ih =>
      obtain ⟨hresult, hrest⟩ := (Visitor.acceptsAll_cons _ _ _ _).1 haccepts
      rw [Position.run_cons, Option.bind_eq_some_iff] at hrun
      obtain ⟨p', hnext, hrun⟩ := hrun
      exact ih ((e.visit_transition ev).unstopped hresult h hnext) hrun hrest

theorem Halted.after (h : e.Halted) (hevs : ∀ ev ∈ evs, ∀ m, ev ≠ .method m) :
    (Visitor.after Engine.visit e evs).Halted ∧
      ∀ r ∈ Visitor.replies Engine.visit e evs, ∃ f, r.result = some (.fault f) := by
  induction evs generalizing e with
  | nil => exact ⟨h, List.forall_mem_nil _⟩
  | cons ev evs ih =>
      obtain ⟨hev, hrest⟩ := List.forall_mem_cons.1 hevs
      obtain ⟨hnext, -, hfault⟩ := h.visit hev
      obtain ⟨hafter, hfaults⟩ := ih hnext hrest
      exact ⟨hafter, List.forall_mem_cons.2 ⟨hfault, hfaults⟩⟩

/-- Events in order are accepted, or else the first that is not has stopped the engine. -/
theorem Unstopped.accepts_or_halted (h : e.Unstopped p) (hrun : (p.run evs).isSome)
    (hevs : ∀ ev ∈ evs.tail, ∀ m, ev ≠ .method m)
    (hcrashed : ∀ r ∈ Visitor.replies Engine.visit e evs, r.crashed = false) :
    Visitor.AcceptsAll Engine.visit e evs ∨ (Visitor.after Engine.visit e evs).Halted := by
  induction evs generalizing e p with
  | nil => exact .inl (List.forall_mem_nil _)
  | cons ev evs ih =>
      obtain ⟨hgoes, hlater⟩ := List.forall_mem_cons.1 hcrashed
      rw [Position.run_cons, Option.isSome_bind, Option.any_eq_true] at hrun
      obtain ⟨p', hnext, hrun⟩ := hrun
      rcases hresult : (e.visit ev).2.result with _ | f | c
      · have hstep := (e.visit_transition ev).unstopped hresult h hnext
        have htail : ∀ ev ∈ evs.tail, ∀ m, ev ≠ .method m :=
          fun ev hev => hevs ev (List.mem_of_mem_tail hev)
        refine (ih hstep hrun htail hlater).imp_left fun haccepts => ?_
        exact (Visitor.acceptsAll_cons _ _ _ _).2 ⟨hresult, haccepts⟩
      · have hhalted := h.promises.halted (h.objection? hnext) hresult
        exact .inr (hhalted.after hevs).1
      · simp [Reply.crashed, hresult] at hgoes

end

section
variable {evs : List (Option Event)} {stop : Bool} {given : List Event}

theorem phase_of_acceptsAll (he : e.Unstopped .outside)
    (h : Delivered Engine.visit stop e evs given) (hwhole : Whole (evs.filterMap id))
    (haccepts : Visitor.AcceptsAll Engine.visit e given) :
    (Visitor.after Engine.visit e given).phase = .unattached := by
  rw [h.eq_of_acceptsAll haccepts, filterMap_map_some] at hwhole
  exact (he.after (Position.run_whole .outside hwhole) haccepts).phase

theorem ended_or_halted (he : e.Unstopped .outside) (h : Delivered Engine.visit stop e evs given)
    (hwhole : Whole (evs.filterMap id)) :
    (Visitor.after Engine.visit e given).phase = .unattached ∨
      (Visitor.after Engine.visit e given).Halted := by
  have hpart := h.part hwhole
  have hrun := Position.isSome_run_part .outside hpart
  have hrest : ∀ ev ∈ given.tail, ∀ m, ev ≠ .method m := by
    obtain ⟨m, rest, rfl, hrest⟩ := hpart.begins
    exact hrest
  exact (he.accepts_or_halted hrun hrest h.crashed).imp_left (phase_of_acceptsAll he h hwhole)

end

end Engine

end OperandStack
