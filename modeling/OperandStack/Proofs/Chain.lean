import OperandStack.Proofs.Delivery
import OperandStack.Proofs.Twin

/-!
# Rows of engines

In a row each engine is in front of the next, so the last one applies an event first, and the one at
the head last. An event that the last engine accepts is accepted all the way up, as long as the
engines know the same. One that it does not accept reaches no other engine, so that the engines know
the same no more. By then the last engine has been stopped, though, and lets nothing through.

So a row that a method is delivered to comes to what a single engine comes to, and if that is no
failure, every engine of the row ends up where the single one does (`row_comes_to_the_same`).
-/

namespace OperandStack

namespace Engine

/-- Engines that make the same of an event. -/
structure Concurs (ev : Event) (s e : Engine) : Prop where
  objection : e.objection? ev = s.objection? ev
  replies : TwinReplies (s.receive ev) (e.receive ev)

variable {s e : Engine} {ev : Event}

theorem Twin.concurs (h : s.Twin e) (ev : Event) : Concurs ev s e := ⟨h.objection? ev, h.receive ev⟩

theorem concurs_method (h : e.config.trackLocals = s.config.trackLocals) (m : MethodInfo) :
    Concurs (.method m) s e :=
  ⟨rfl, twin_receiveMethod h m⟩

theorem Twin.halted (h : s.Twin e) (hs : s.Halted) : e.Halted := by
  rw [h.same]
  exact ⟨hs.sticky, hs.stack⟩

end Engine

namespace Chain

variable {s e : Engine} {chain rest : List Engine} {ev : Event} {f : Fault}

/-! ## One event -/

theorem visit_of_objection (h : e.objection? ev = some f) (rest : List Engine) :
    visit (e :: rest) ev = (e :: rest, .refuse f) := by
  simp only [visit, Engine.relay, h]

theorem visit_singleton (h : e.objection? ev = none) :
    (visit [e] ev).1 = [(e.receive ev).1] ∧ (visit [e] ev).2.result = (e.receive ev).2.result := by
  simp only [visit, Engine.relay, h, Reply.accepted, Reply.followedBy, and_self]

/-- What the engines behind do not accept does not reach the engine at the head. -/
theorem visit_of_refused {stop : Stop} (h : e.objection? ev = none)
    (hrest : (visit rest ev).2.result = some stop) :
    (visit (e :: rest) ev).1 = e :: (visit rest ev).1 ∧
      (visit (e :: rest) ev).2.result = some stop := by
  simp only [visit, Engine.relay, h, hrest, Reply.below, and_self]

theorem visit_of_accepted (h : e.objection? ev = none)
    (hrest : (visit rest ev).2.result = none) :
    (visit (e :: rest) ev).1 = (e.receive ev).1 :: (visit rest ev).1 ∧
      (visit (e :: rest) ev).2.result = (e.receive ev).2.result := by
  simp only [visit, Engine.relay, h, hrest, Reply.followedBy, and_self]

/-- What a row makes of an event, compared to an engine that all of its engines concur with. -/
structure Mirrors (s : Engine) (ev : Event) (chain : List Engine) : Prop where
  result : (visit chain ev).2.result = (s.visit ev).2.result
  length : (visit chain ev).1.length = chain.length
  objected : s.objection? ev ≠ none → (visit chain ev).1 = chain
  accepted : (s.visit ev).2.result = none → ∀ e ∈ (visit chain ev).1, (s.visit ev).1.Twin e
  last : s.objection? ev = none →
    ∃ e, (visit chain ev).1.getLast? = some e ∧ (s.visit ev).1.Twin e

theorem mirrors_of_objection (hhead : Engine.Concurs ev s e) (h : s.objection? ev = some f)
    (rest : List Engine) : Mirrors s ev (e :: rest) := by
  have hvisit : s.visit ev = (s, .refuse f) := by simp only [Engine.visit, h]
  have hchain := visit_of_objection (hhead.objection.trans h) rest
  constructor
  · rw [hchain, hvisit]
  · rw [hchain]
  · exact fun _ => by rw [hchain]
  · rw [hvisit]
    intro hnone
    cases hnone
  · rw [h]
    intro hnone
    cases hnone

theorem mirrors_singleton (hhead : Engine.Concurs ev s e) (h : s.objection? ev = none) :
    Mirrors s ev [e] := by
  obtain ⟨hchain, hresult⟩ := visit_singleton (hhead.objection.trans h)
  have hvisit := Engine.visit_eq_receive h
  constructor
  · rw [hresult, hvisit, hhead.replies.result]
  · rw [hchain]
    rfl
  · exact fun hsome => absurd h hsome
  · intro _ e' he'
    rw [hchain, List.mem_singleton] at he'
    rw [he', hvisit]
    exact hhead.replies.twin
  · intro _
    refine ⟨(e.receive ev).1, by rw [hchain]; rfl, ?_⟩
    rw [hvisit]
    exact hhead.replies.twin

/-- One engine more at the head. -/
theorem Mirrors.cons (hhead : Engine.Concurs ev s e) (h : s.objection? ev = none)
    (hrest : Mirrors s ev rest) : Mirrors s ev (e :: rest) := by
  have hhead? := hhead.objection.trans h
  have hvisit := Engine.visit_eq_receive h
  obtain ⟨last, hlast, htwin⟩ := hrest.last h
  have hbehind (e' : Engine) : (e' :: (visit rest ev).1).getLast? = some last := by
    rw [List.getLast?_cons, hlast]
    rfl
  rcases hresult : (s.visit ev).2.result with _ | stop
  · obtain ⟨hchain, hown⟩ := visit_of_accepted hhead? (hrest.result.trans hresult)
    constructor
    · rw [hown, hvisit, hhead.replies.result]
    · rw [hchain, List.length_cons, hrest.length, List.length_cons]
    · exact fun hsome => absurd h hsome
    · intro _ e' he'
      rw [hchain, List.mem_cons] at he'
      rcases he' with rfl | he'
      · rw [hvisit]
        exact hhead.replies.twin
      · exact hrest.accepted hresult e' he'
    · exact fun _ => ⟨last, by rw [hchain, hbehind], htwin⟩
  -- The head keeps its state, so of the engines only the last is known to be a twin.
  · obtain ⟨hchain, hown⟩ := visit_of_refused hhead? (hrest.result.trans hresult)
    constructor
    · rw [hown, hresult]
    · rw [hchain, List.length_cons, hrest.length, List.length_cons]
    · exact fun hsome => absurd h hsome
    · exact fun hnone => nomatch hresult.symm.trans hnone
    · exact fun _ => ⟨last, by rw [hchain, hbehind], htwin⟩

theorem mirrors (hne : chain ≠ []) (h : ∀ e ∈ chain, Engine.Concurs ev s e) :
    Mirrors s ev chain := by
  induction chain with
  | nil => exact absurd rfl hne
  | cons e rest ih =>
      obtain ⟨hhead, hrest⟩ := List.forall_mem_cons.1 h
      rcases hobject : s.objection? ev with _ | f
      · rcases rest with _ | ⟨e', rest⟩
        · exact mirrors_singleton hhead hobject
        · exact .cons hhead hobject (ih (List.cons_ne_nil _ _) hrest)
      · exact mirrors_of_objection hhead hobject rest

/-! ## Whole methods -/

/-- The engines of a row of `n` know the same as a single engine. -/
structure InStep (n : Nat) (s : Engine) (chain : List Engine) : Prop where
  ne_nil : chain ≠ []
  length : chain.length = n
  twins : ∀ e ∈ chain, s.Twin e
  promises : s.Promises

def LastHalted (chain : List Engine) : Prop := ∃ e, chain.getLast? = some e ∧ e.Halted

theorem Mirrors.agree (h : Mirrors s ev chain) (hne : chain ≠ [])
    (hs : s.Promises) (hstep : s.objection? ev ≠ none → InStep chain.length s chain) :
    RepliesAgree (InStep chain.length) Engine.Halted LastHalted (s.visit ev) (visit chain ev) where
  result := h.result
  accepted hnone :=
    { ne_nil := List.ne_nil_of_length_pos (by rw [h.length]; exact List.length_pos_of_ne_nil hne)
      length := h.length
      twins := h.accepted hnone
      promises := hs.visit ev }
  faulted f hf := by
    rcases hobject : s.objection? ev with _ | g
    · have hhalted := hs.halted hobject hf
      obtain ⟨e, he, htwin⟩ := h.last hobject
      exact .inr ⟨hhalted, e, he, htwin.halted hhalted⟩
    · have hsome : s.objection? ev ≠ none := by simp [hobject]
      have hsame : (s.visit ev).1 = s := by simp only [Engine.visit, hobject]
      rw [hsame, h.objected hsome]
      exact .inl (hstep hsome)

theorem refuses_lastHalted :
    Visitor.Refuses visit (fun ev => ∀ m, ev ≠ .method m) LastHalted := by
  rintro chain ev hev ⟨last, hlast, hhalted⟩
  induction chain with
  | nil => cases hlast
  | cons e rest ih =>
      rcases hobject : e.objection? ev with _ | f
      · rcases rest with _ | ⟨e', rest⟩
        · obtain rfl : e = last := Option.some.inj hlast
          obtain ⟨hchain, hresult⟩ := visit_singleton hobject
          obtain ⟨hnext, -, f, hf⟩ := hhalted.visit hev
          rw [Engine.visit_eq_receive hobject] at hnext hf
          refine ⟨⟨_, by rw [hchain]; rfl, hnext⟩, f, hresult.trans hf⟩
        · rw [List.getLast?_cons_cons] at hlast
          obtain ⟨⟨last', hlast', hhalted'⟩, f, hf⟩ := ih hlast
          obtain ⟨hchain, hresult⟩ := visit_of_refused hobject hf
          refine ⟨⟨last', ?_, hhalted'⟩, f, hresult⟩
          rw [hchain, List.getLast?_cons, hlast']
          rfl
      · rw [visit_of_objection hobject]
        exact ⟨⟨last, hlast, hhalted⟩, f, rfl⟩

theorem InStep.agree {n : Nat} (h : InStep n s chain) (ev : Event) :
    RepliesAgree (InStep n) Engine.Halted LastHalted (s.visit ev) (visit chain ev) := by
  obtain rfl := h.length
  have hmirrors := mirrors h.ne_nil fun e he => (h.twins e he).concurs ev
  exact hmirrors.agree h.ne_nil h.promises fun _ => h

/-- A declaration brings a row in step, whatever its engines were doing. -/
theorem agree_method (hne : chain ≠ []) (hs : s.Promises)
    (htracking : ∀ e ∈ chain, e.config.trackLocals = s.config.trackLocals) (m : MethodInfo) :
    RepliesAgree (InStep chain.length) Engine.Halted LastHalted (s.visit (.method m))
      (visit chain (.method m)) := by
  have hmirrors := mirrors hne fun e he => Engine.concurs_method (htracking e he) m
  exact hmirrors.agree hne hs fun hsome => absurd rfl hsome

theorem replay_method (hne : chain ≠ []) (hs : s.Promises)
    (htracking : ∀ e ∈ chain, e.config.trackLocals = s.config.trackLocals) {src : Source}
    (hsrc : src.IsMethod) :
    SameOutcome (InStep chain.length) (src.replay Engine.visit s) (src.replay visit chain) := by
  obtain ⟨m, inner, hevents, hinner⟩ := hsrc.begins
  have hrest : ∀ ev, some ev ∈ inner ++ [some Event.finish] → ∀ m', ev ≠ .method m' := by
    intro ev hev
    rcases List.mem_append.1 hev with hev | hev
    · exact hinner ev hev
    · cases List.mem_singleton.1 hev
      exact nofun
  unfold Source.replay
  rw [hevents]
  -- The engines are in step from the declaration on, and not before it.
  refine (agree_method hne hs htracking m).cons Engine.refuses_halted refuses_lastHalted hrest ?_
  intro hstep
  exact .deliver Engine.refuses_halted refuses_lastHalted (fun s t ev _ h => h.agree ev) hstep hrest

end Chain

/-- A delivery that comes to no failure has gone to the end of the method. -/
theorem Engine.phase_of_outcome {src : Source} (hsrc : src.IsMethod) {e : Engine}
    (he : e.Unstopped .outside) (h : outcome (src.replay Engine.visit e).2 = none) :
    (src.replay Engine.visit e).1.phase = .unattached := by
  unfold Source.replay at h ⊢
  obtain ⟨given, hgiven⟩ := exists_delivered (fun c hc => nomatch h.symm.trans hc)
  rw [hgiven.run, outcome_of_not_crashed hgiven.crashed, List.findSome?_eq_none_iff] at h
  rw [hgiven.run]
  exact phase_of_acceptsAll he hgiven hsrc.whole h

/-- A row of engines that track local variables all or none, in whatever states they are, comes to
the same over a method as a single new engine, whether the delivery stops at a failure or not. If
there is none, all engines of the row are done with the method and have its declaration, its local
variables, its returned value and its number of instructions, as the single engine does. -/
theorem row_comes_to_the_same (config : Config) (chain : List Engine) (hne : chain ≠ [])
    (htracking : ∀ e ∈ chain, e.config.trackLocals = config.trackLocals) (src : Source)
    (hsrc : src.IsMethod) :
    let single := src.replay Engine.visit (Engine.new config)
    let row := src.replay Chain.visit chain
    outcome row.2 = outcome single.2 ∧
      (outcome row.2 = none →
        single.1.phase = .unattached ∧ row.1.length = chain.length ∧
        ∀ e ∈ row.1, e.phase = .unattached ∧ e.method = single.1.method ∧
          e.locals = single.1.locals ∧ e.returned = single.1.returned ∧
          e.count = single.1.count) := by
  intro single row
  have hsame : SameOutcome (Chain.InStep chain.length) single row :=
    Chain.replay_method hne (Engine.promises_new config) htracking hsrc
  refine ⟨hsame.outcome, fun hnone => ?_⟩
  have hsingle : outcome single.2 = none := hsame.outcome.symm.trans hnone
  have hphase : single.1.phase = .unattached :=
    Engine.phase_of_outcome hsrc (Engine.unstopped_new config) hsingle
  have hstep := hsame.inStep hsingle
  refine ⟨hphase, hstep.length, fun e he => ?_⟩
  rw [(hstep.twins e he).same]
  exact ⟨hphase, rfl, rfl, rfl, rfl⟩

/-- An engine in the middle of a body in front of one that a bad descriptor has stopped. -/
def unevenRow : List Engine :=
  [Visitor.after Engine.visit (Engine.new {})
      [.method { name := "f", descriptor := "()V" }, .code,
        .instruction (some (.plain ⟨0x04⟩))],
    Visitor.after Engine.visit (Engine.new {}) [.method { name := "g", descriptor := "?" }]]

def popsOnce : Body where
  access := .empty
  name := "h"
  descriptor := "(J)V"
  params := ["x"]
  code := [some (.instruction (.plain ⟨0x04⟩)), some (.instruction (.plain ⟨0x57⟩))]

theorem row_comes_to_the_same_uneven :
    let row := (popsOnce.source false).replay Chain.visit unevenRow
    outcome row.2 = none ∧ row.1.length = 2 ∧
      ∀ e ∈ row.1, e.phase = .unattached ∧ e.count = 2 := by
  intro row
  have hnone : outcome row.2 = none := by decide +kernel
  have hcount : ((popsOnce.source false).replay Engine.visit (Engine.new {})).1.count = 2 := by
    decide +kernel
  obtain ⟨-, hsame⟩ := row_comes_to_the_same {} unevenRow (List.cons_ne_nil _ _)
    (by decide +kernel) (popsOnce.source false) (.body popsOnce false)
  obtain ⟨-, hlength, hall⟩ := hsame hnone
  refine ⟨hnone, hlength, fun e he => ?_⟩
  obtain ⟨hphase, -, -, -, hown⟩ := hall e he
  exact ⟨hphase, hown.trans hcount⟩

end OperandStack
