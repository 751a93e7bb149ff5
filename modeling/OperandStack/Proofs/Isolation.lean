import Mathlib.Data.List.Nodup
import OperandStack.Engine.Workshop
import OperandStack.Proofs.Protocol
import OperandStack.Proofs.Twin

/-!
# Methods do not reach into each other

An engine can be used for method after method, and its stack comes from a pool that other engines
use too. Neither lets anything of one method into another.

A declaration wipes out what came before, so from a declaration on two engines of one configuration
are twins, and they stay twins (`Engine.twinRuns_method`). As for the pool, no stack is ever in two
hands, and those in the pool are empty (`Workshop.Sound`). Hence each engine of a workshop sees its
events as if it had its stacks to itself (`Workshop.engine_after`), whatever the other engines do
between them and whichever stacks the pool gives out.
-/

namespace OperandStack

namespace Engine

variable {e e' : Engine}

/-! ## After a declaration -/

/-- Events that two engines take with the same results and hook calls, and that leave them twins
of one configuration. -/
structure TwinRuns (e e' : Engine) (evs : List Event) : Prop where
  twin : (Visitor.after visit e evs).Twin (Visitor.after visit e' evs)
  config : (Visitor.after visit e' evs).config = (Visitor.after visit e evs).config
  replies : (Visitor.replies visit e' evs).map (fun r => (r.result, r.hooks)) =
    (Visitor.replies visit e evs).map (fun r => (r.result, r.hooks))

/-- A run from a step that makes twins of the engines, whatever they were before it. -/
theorem TwinReplies.runs {ev : Event} {evs : List Event} (h : e'.config = e.config)
    (hstep : TwinReplies (e.visit ev) (e'.visit ev))
    (hrest : (e.visit ev).1.Twin (e'.visit ev).1 → (e'.visit ev).1.config = (e.visit ev).1.config →
      TwinRuns (e.visit ev).1 (e'.visit ev).1 evs) :
    TwinRuns e e' (ev :: evs) := by
  have hconfig : (e'.visit ev).1.config = (e.visit ev).1.config := by
    rw [(e'.visit_transition ev).config, (e.visit_transition ev).config, h]
  have hruns := hrest hstep.twin hconfig
  refine ⟨hruns.twin, hruns.config, ?_⟩
  have hhooks := hstep.hooks (congrArg Config.hooks hconfig)
  simp only [Visitor.replies, List.map_cons, hstep.result, hhooks, hruns.replies]

theorem Twin.runs (h : e.Twin e') (hconfig : e'.config = e.config) (evs : List Event) :
    TwinRuns e e' evs := by
  induction evs generalizing e e' with
  | nil => exact ⟨h, hconfig, rfl⟩
  | cons ev evs ih => exact (h.visit ev).runs hconfig ih

/-- What came before does not matter from a declaration on. -/
theorem twinRuns_method (h : e'.config = e.config) (m : MethodInfo) (evs : List Event) :
    TwinRuns e e' (.method m :: evs) :=
  (twin_receiveMethod (congrArg Config.trackLocals h) m).runs h
    (fun htwin hconfig => htwin.runs hconfig evs)

theorem after_config (e : Engine) (evs : List Event) :
    (Visitor.after visit e evs).config = e.config := by
  induction evs generalizing e with
  | nil => rfl
  | cons ev evs ih =>
      rw [Visitor.after_cons, ih]
      exact (e.visit_transition ev).config

/-! ## Which events touch the stack -/

theorem visit_method_stack (e : Engine) (m : MethodInfo) :
    (e.visit (.method m)).1.stack = none := by
  rw [visit_method]
  unfold receiveMethod declare
  split <;> rfl

theorem visit_code_stack (e : Engine) :
    (e.visit .code).1.stack = if (e.visit .code).2.result.isNone then some [] else e.stack := by
  have h := e.visit_transition .code
  generalize (e.visit .code).2.result = result at h
  generalize (e.visit .code).1 = e' at h
  cases h <;> rfl

theorem visit_finish_stack (e : Engine) :
    (e.visit .finish).1.stack = if e.phase = .inCode then none else e.stack := by
  unfold visit objection?
  rcases hphase : e.phase with _ | _ | _
  · rfl
  · simp [receive, receiveFinish, hphase]
  · rcases hstack : e.stack with _ | s <;> simp [receive, receiveFinish, hphase, hstack]

theorem visit_stack_isSome (e : Engine) {ev : Event} (h : ev.isParameter ∨ ev.isElement) :
    (e.visit ev).1.stack.isSome = e.stack.isSome := by
  have htrans := e.visit_transition ev
  generalize (e.visit ev).2.result = result at htrans
  generalize (e.visit ev).1 = e' at htrans
  cases htrans with
  | declared | misdeclared | code | unplaced | finished =>
      simp [Event.isParameter, Event.isElement] at h
  | applied hready => simp [advanced_stack, hready.stack]
  | crashed => simp
  | _ => rfl

end Engine

/-! ## Stacks from a pool -/

namespace Workshop

/-- Every stack is in one place, and in the pool there are empty ones only. -/
structure Sound (w : Workshop) : Prop where
  apart {i j a : Nat} : w.held i = some a → w.held j = some a → i = j
  away {i a : Nat} : w.held i = some a → a ∉ w.idle
  nodup : w.idle.Nodup
  emptied : ∀ a ∈ w.idle, w.contents a = []
  held_lt {i a : Nat} : w.held i = some a → a < w.made
  idle_lt : ∀ a ∈ w.idle, a < w.made

theorem sound_start (configs : Nat → Config) : (start configs).Sound where
  apart := nofun
  away := nofun
  nodup := List.nodup_nil
  emptied := nofun
  held_lt := nofun
  idle_lt := nofun

variable {w : Workshop}

theorem Sound.put (h : w.Sound) (i : Nat) (e : Engine) : (w.put i e).Sound :=
  ⟨h.apart, h.away, h.nodup, h.emptied, h.held_lt, h.idle_lt⟩

theorem engine_put (w : Workshop) (i j : Nat) (e : Engine) :
    (w.put i e).engine j =
      if j = i then { e with stack := (w.engine i).stack } else w.engine j := by
  unfold engine Workshop.put
  split
  · next hij => subst hij; simp
  · next hij => simp [hij]

theorem Sound.fill (h : w.Sound) (i : Nat) (entries : Option Operands) :
    (w.fill i entries).Sound := by
  unfold Workshop.fill
  split
  · next a s hheld =>
    refine ⟨h.apart, h.away, h.nodup, ?_, h.held_lt, h.idle_lt⟩
    intro b hb
    have hne : b ≠ a := fun hba => h.away hheld (hba ▸ hb)
    simp [hne, h.emptied b hb]
  · exact h

/-- What is written to a stack is seen by the engine that holds it and by no other. -/
theorem engine_fill (h : w.Sound) (i j : Nat) {entries : Option Operands}
    (hentries : entries.isSome = (w.engine i).stack.isSome) :
    (w.fill i entries).engine j =
      if j = i then { w.engine i with stack := entries } else w.engine j := by
  rcases hheld : w.held i with _ | a
  · have hnone : entries = none := by simpa [engine, hheld] using hentries
    simp only [Workshop.fill, hheld, hnone]
    split
    · next hij => subst hij; simp [engine, hheld]
    · rfl
  · obtain ⟨s, rfl⟩ : ∃ s, entries = some s := by
      simpa [engine, hheld, Option.isSome_iff_exists] using hentries
    simp only [Workshop.fill, hheld]
    split
    · next hij => subst hij; simp [engine, hheld]
    · next hij =>
      rcases hother : w.held j with _ | b
      · simp [engine, hother]
      · have hne : b ≠ a := fun hba => hij (h.apart hother (hba ▸ hheld))
        simp [engine, hother, hne]

theorem Sound.release (h : w.Sound) (i : Nat) : (w.release i).Sound := by
  unfold Workshop.release
  split
  · exact h
  · next a hheld =>
    have hother {j b : Nat} (hj : (if j = i then none else w.held j) = some b) :
        w.held j = some b ∧ b ≠ a := by
      split at hj
      · cases hj
      · next hij => exact ⟨hj, fun hba => hij (h.apart hj (hba ▸ hheld))⟩
    constructor
    · intro j k b hj hk
      exact h.apart (hother hj).1 (hother hk).1
    · intro j b hj
      simp [(hother hj).2, h.away (hother hj).1]
    · exact List.nodup_cons.mpr ⟨h.away hheld, h.nodup⟩
    · intro b hb
      by_cases hba : b = a
      · simp [hba]
      · have hidle : b ∈ w.idle := by simpa [hba] using hb
        simp [hba, h.emptied b hidle]
    · intro j b hj
      exact h.held_lt (hother hj).1
    · intro b hb
      rcases List.mem_cons.mp hb with rfl | hidle
      · exact h.held_lt hheld
      · exact h.idle_lt b hidle

theorem engine_release (h : w.Sound) (i j : Nat) :
    (w.release i).engine j =
      if j = i then { w.engine i with stack := none } else w.engine j := by
  rcases hheld : w.held i with _ | a
  · simp only [Workshop.release, hheld]
    split
    · next hij => subst hij; simp [engine, hheld]
    · rfl
  · simp only [Workshop.release, hheld]
    split
    · next hij => subst hij; simp [engine]
    · next hij =>
      rcases hother : w.held j with _ | b
      · simp [engine, hij, hother]
      · have hne : b ≠ a := fun hba => hij (h.apart hother (hba ▸ hheld))
        simp [engine, hij, hother, hne]

theorem Sound.not_mem_eraseIdx (h : w.Sound) {pick a : Nat} (ha : w.idle[pick]? = some a) :
    a ∉ w.idle.eraseIdx pick := by
  intro hmem
  obtain ⟨k, hne, hk⟩ := List.mem_eraseIdx_iff_getElem?.mp hmem
  have hlt : k < w.idle.length := (List.getElem?_eq_some_iff.mp hk).1
  exact hne ((List.getElem?_inj hlt h.nodup).mp (hk.trans ha.symm))

theorem Sound.hand (h : w.Sound) (i : Nat) {a : Nat} (hfree : ∀ j, w.held j ≠ some a)
    (hout : a ∉ w.idle) (hlt : a < w.made) :
    Sound { w with held := fun j => if j = i then some a else w.held j } := by
  have hcases {j b : Nat} (hj : (if j = i then some a else w.held j) = some b) :
      j = i ∧ b = a ∨ w.held j = some b ∧ b ≠ a := by
    split at hj
    · next hji => exact .inl ⟨hji, (Option.some.inj hj).symm⟩
    · exact .inr ⟨hj, fun hba => hfree j (hba ▸ hj)⟩
  refine ⟨?_, ?_, h.nodup, h.emptied, ?_, h.idle_lt⟩
  · intro j k b hj hk
    rcases hcases hj with ⟨hji, hba⟩ | ⟨hj, hne⟩ <;> rcases hcases hk with ⟨hki, hba'⟩ | ⟨hk, hne'⟩
    · rw [hji, hki]
    · exact absurd hba hne'
    · exact absurd hba' hne
    · exact h.apart hj hk
  · intro j b hj
    rcases hcases hj with ⟨-, rfl⟩ | ⟨hj, -⟩
    · exact hout
    · exact h.away hj
  · intro j b hj
    rcases hcases hj with ⟨-, rfl⟩ | ⟨hj, -⟩
    · exact hlt
    · exact h.held_lt hj

theorem Sound.acquire (h : w.Sound) (i pick : Nat) : (w.acquire i pick).Sound := by
  unfold Workshop.acquire
  split
  · next a ha =>
    have hidle : a ∈ w.idle := List.mem_of_getElem? ha
    -- Between the two steps the stack is in no place at all.
    have hless : Sound { w with idle := w.idle.eraseIdx pick } :=
      ⟨h.apart, fun hj hb => h.away hj (List.mem_of_mem_eraseIdx hb), h.nodup.eraseIdx pick,
        fun b hb => h.emptied b (List.mem_of_mem_eraseIdx hb), h.held_lt,
        fun b hb => h.idle_lt b (List.mem_of_mem_eraseIdx hb)⟩
    exact hless.hand i (fun j hj => h.away hj hidle) (h.not_mem_eraseIdx ha) (h.idle_lt a hidle)
  · have hmore : Sound
        { w with
          contents := fun b => if b = w.made then [] else w.contents b, made := w.made + 1 } := by
      refine ⟨h.apart, h.away, h.nodup, ?_, ?_, ?_⟩
      · intro b hb
        simp [h.emptied b hb]
      · exact fun hj => Nat.lt_succ_of_lt (h.held_lt hj)
      · exact fun b hb => Nat.lt_succ_of_lt (h.idle_lt b hb)
    exact hmore.hand i (fun j hj => Nat.lt_irrefl _ (h.held_lt hj))
      (fun hidle => Nat.lt_irrefl _ (h.idle_lt _ hidle)) (Nat.lt_succ_self _)

theorem engine_acquire (h : w.Sound) (i j pick : Nat) :
    (w.acquire i pick).engine j =
      if j = i then { w.engine i with stack := some [] } else w.engine j := by
  unfold Workshop.acquire
  split
  · next a ha =>
    have hempty : w.contents a = [] := h.emptied a (List.mem_of_getElem? ha)
    split
    · next hij => subst hij; simp [engine, hempty]
    · next hij => simp [engine, hij]
  · split
    · next hij => subst hij; simp [engine]
    · next hij =>
      rcases hother : w.held j with _ | b
      · simp [engine, hij, hother]
      · have hne : b ≠ w.made := Nat.ne_of_lt (h.held_lt hother)
        simp [engine, hij, hother, hne]

/-! ## Workshops at work -/

theorem Sound.visit (h : w.Sound) (t : Turn) : (w.visit t).1.Sound := by
  have hput := h.put t.engine ((w.engine t.engine).visit t.event).1
  unfold Workshop.visit
  dsimp only
  split
  · exact hput.release _
  · split
    · exact hput.acquire _ _
    · exact hput
  · split
    · exact hput.release _
    · exact hput
  · exact hput.fill _ _

theorem visit_reply (w : Workshop) (t : Turn) :
    (w.visit t).2 = ((w.engine t.engine).visit t.event).2 := by
  unfold Workshop.visit
  dsimp only
  split <;> rfl

/-- An engine has been put in place once the stack in its hand is the one it came out with. -/
theorem engine_of_put {w' : Workshop} {i j : Nat} {e : Engine} {s : Option Operands}
    (h : w'.engine j =
      if j = i then { (w.put i e).engine i with stack := s } else (w.put i e).engine j)
    (hs : e.stack = s) : w'.engine j = if j = i then e else w.engine j := by
  rw [h, engine_put, engine_put, if_pos rfl, ← hs]
  split <;> rfl

theorem engine_put_of_stack {i : Nat} {e : Engine} (h : e.stack = (w.engine i).stack) (j : Nat) :
    (w.put i e).engine j = if j = i then e else w.engine j := by
  rw [engine_put, ← h]

/-- The engine whose turn it is goes on as if it were alone, and the others stay as they are. -/
theorem engine_visit (h : w.Sound) (t : Turn) (j : Nat) :
    (w.visit t).1.engine j =
      if j = t.engine then ((w.engine t.engine).visit t.event).1 else w.engine j := by
  obtain ⟨i, ev, pick⟩ := t
  have hput := h.put i ((w.engine i).visit ev).1
  have hfill (hev : ev.isParameter ∨ ev.isElement) :
      ((w.put i ((w.engine i).visit ev).1).fill i ((w.engine i).visit ev).1.stack).engine j =
        if j = i then ((w.engine i).visit ev).1 else w.engine j := by
    have hthere := (w.engine i).visit_stack_isSome hev
    refine engine_of_put (engine_fill hput i j ?_) rfl
    rw [hthere, engine_put, if_pos rfl]
  cases ev with
  | method m => exact engine_of_put (engine_release hput i j) ((w.engine i).visit_method_stack m)
  | parameter name access => exact hfill (.inl rfl)
  | code =>
      have hstack := (w.engine i).visit_code_stack
      simp only [Workshop.visit]
      split at hstack
      · next haccepts =>
        rw [if_pos haccepts]
        exact engine_of_put (engine_acquire hput i j pick) hstack
      · next haccepts =>
        rw [if_neg haccepts]
        exact engine_put_of_stack hstack j
  | label name => exact hfill (.inr rfl)
  | instruction ins => exact hfill (.inr rfl)
  | finish =>
      have hstack := (w.engine i).visit_finish_stack
      simp only [Workshop.visit]
      split at hstack
      · next hphase =>
        rw [if_pos hphase]
        exact engine_of_put (engine_release hput i j) hstack
      · next hphase =>
        rw [if_neg hphase]
        exact engine_put_of_stack hstack j

/-- Each engine of a workshop is what its own events make of it. -/
theorem engine_after (h : w.Sound) (turns : List Turn) (i : Nat) :
    (w.after turns).engine i =
        Visitor.after Engine.visit (w.engine i) (Turn.eventsOf i turns) ∧
      repliesOf i w turns = Visitor.replies Engine.visit (w.engine i) (Turn.eventsOf i turns) := by
  induction turns generalizing w with
  | nil => exact ⟨rfl, rfl⟩
  | cons t turns ih =>
      obtain ⟨hafter, hreplies⟩ := ih (h.visit t)
      rw [engine_visit h] at hafter hreplies
      by_cases hturn : t.engine = i
      · have hevents : Turn.eventsOf i (t :: turns) = t.event :: Turn.eventsOf i turns := by
          simp [Turn.eventsOf, hturn]
        rw [if_pos hturn.symm, hturn] at hafter hreplies
        rw [hevents]
        refine ⟨hafter, ?_⟩
        simp only [repliesOf, visit_reply, hreplies, hturn]
        rfl
      · have hevents : Turn.eventsOf i (t :: turns) = Turn.eventsOf i turns := by
          simp [Turn.eventsOf, hturn]
        rw [if_neg (Ne.symm hturn)] at hafter hreplies
        rw [hevents]
        refine ⟨hafter, ?_⟩
        simp only [repliesOf, if_neg hturn, List.nil_append, hreplies]

end Workshop

/-- What an engine does with a method does not depend on what it or any other engine has done
before. Two engines of one configuration that have come to where they are by any events whatever
give the same results and make the same hook calls from a declaration on, and after each event they
are the same but for the samplers. And where engines share a pool of stacks, each of them is what
its own events make of it and replies as it would alone. -/
theorem methods_are_isolated :
    (∀ (config : Config) (past past' : List Event) (m : MethodInfo) (evs : List Event),
      let e := Visitor.after Engine.visit (Engine.new config) past
      let e' := Visitor.after Engine.visit (Engine.new config) past'
      (Visitor.replies Engine.visit e' (.method m :: evs)).map (fun r => (r.result, r.hooks)) =
          (Visitor.replies Engine.visit e (.method m :: evs)).map (fun r => (r.result, r.hooks)) ∧
        ∀ n, ∃ sampler,
          Visitor.after Engine.visit e' (.method m :: evs.take n) =
            { Visitor.after Engine.visit e (.method m :: evs.take n) with sampler }) ∧
    ∀ (configs : Nat → Config) (turns : List Turn) (i : Nat),
      ((Workshop.start configs).after turns).engine i =
          Visitor.after Engine.visit (Engine.new (configs i)) (Turn.eventsOf i turns) ∧
        Workshop.repliesOf i (Workshop.start configs) turns =
          Visitor.replies Engine.visit (Engine.new (configs i)) (Turn.eventsOf i turns) := by
  constructor
  · intro config past past' m evs e e'
    have hconfig : e'.config = e.config := by
      simp only [e, e', Engine.after_config]
    refine ⟨(Engine.twinRuns_method hconfig m evs).replies, ?_⟩
    intro n
    have hruns := Engine.twinRuns_method hconfig m (evs.take n)
    refine ⟨(Visitor.after Engine.visit e' (.method m :: evs.take n)).sampler, ?_⟩
    rw [hruns.twin.same, hruns.config]
    rfl
  · intro configs turns i
    exact Workshop.engine_after (Workshop.sound_start configs) turns i

end OperandStack
