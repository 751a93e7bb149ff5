import OperandStack.Proofs.Allocation

/-!
# Safety

The operations of an engine rely on what events have left behind: a body has a stack, a layout and
a descriptor, and a method that has not been stopped has a descriptor with room for the names that
were given. `Engine.Promises` says so, and every event keeps it.

An engine that keeps its promises has one way left to crash, which is to run out of numbers for
allocations. A sequence of less than 2^63 events is too short for that
(`Engine.no_event_crashes`).
-/

namespace OperandStack

/-- The instruction, if there is one, is of the thirteen forms. -/
def Event.isClosed : Event → Bool
  | .instruction (some ins) => ins.isClosed
  | _ => true

namespace Engine

def arity (e : Engine) : Nat := (e.descriptor.map fun d => d.params.length).getD 0

/-- What the operations of an engine rely on. -/
structure Promises (e : Engine) : Prop where
  declared : e.phase = .inMethod → e.sticky = none → e.descriptor.isSome
  coded : e.phase = .inCode → e.stack.isSome ∧ e.descriptor.isSome ∧ e.locals.isSome
  named : e.names.length ≤ e.arity
  placed : e.sticky ≠ some .tooManyParameters

theorem promises_new (config : Config) : (new config).Promises where
  declared := nofun
  coded := nofun
  named := Nat.zero_le _
  placed := nofun

section
variable {e e' : Engine} {ev : Event} {result : Option Stop} {d : MethodDescriptor}

theorem arity_of_descriptor (hd : e.descriptor = some d) : e.arity = d.params.length := by
  simp [arity, hd]

theorem Promises.layout (h : e.Promises) (hd : e.descriptor = some d) :
    LocalLayout.ofMethod? e.method.access.isStatic d e.names ≠ none := by
  have hle := h.named
  rw [arity_of_descriptor hd] at hle
  simp only [LocalLayout.ofMethod?, if_neg (Nat.not_lt.2 hle)]
  intro hnone
  cases hnone

theorem Promises.stopped {f : Fault} (h : e.Promises) (hf : f ≠ .tooManyParameters) :
    { e with sticky := some f }.Promises where
  declared := nofun
  coded := h.coded
  named := h.named
  placed := fun hsticky => hf (Option.some.inj hsticky)

theorem Transition.promises (h : e.Transition ev e' result) (hp : e.Promises) : e'.Promises := by
  cases h with
  | refused => exact hp
  | missing => exact hp
  | declared => exact ⟨fun _ _ => rfl, nofun, Nat.zero_le _, nofun⟩
  | misdeclared => exact ⟨nofun, nofun, Nat.zero_le _, nofun⟩
  | @named name _ d _ hd hroom =>
      have hle := hp.named
      have hnames : (e.names ++ [name]).length ≤ e.arity := by
        rw [arity_of_descriptor hd] at hle ⊢
        rw [List.length_append, List.length_singleton]
        omega
      exact { hp with named := hnames }
  | surplus => exact hp.stopped nofun
  | @code d layout _ hd =>
      exact ⟨nofun, fun _ => ⟨rfl, Option.isSome_of_eq_some hd, rfl⟩, hp.named, hp.placed⟩
  | unplaced _ hd hnone => exact absurd hnone (hp.layout hd)
  | label => exact ⟨hp.declared, hp.coded, hp.named, hp.placed⟩
  | applied hready =>
      refine ⟨hp.declared, fun hphase => ?_, hp.named, hp.placed⟩
      exact ⟨rfl, (hp.coded hphase).2⟩
  | @faulted ins f _ hf =>
      have hcounted : e.counted.Promises := ⟨hp.declared, hp.coded, hp.named, hp.placed⟩
      refine hcounted.stopped ?_
      rcases hf with hrefused | ⟨op, u, rfl⟩
      · cases hrefused <;> exact nofun
      · exact nofun
  | crashed =>
      refine ⟨hp.declared, fun hphase => ?_, hp.named, hp.placed⟩
      exact ⟨by simpa using (hp.coded hphase).1, (hp.coded hphase).2⟩
  | finished => exact ⟨nofun, nofun, hp.named, hp.placed⟩

theorem Promises.visit (h : e.Promises) (ev : Event) : (e.visit ev).1.Promises :=
  (e.visit_transition ev).promises h

/-- A body is never refused for want of a layout. -/
theorem Transition.ne_tooManyParameters (h : e.Transition ev e' result) (hp : e.Promises) :
    result ≠ some (.fault .tooManyParameters) := by
  intro hresult
  cases h with
  | refused hf =>
      cases hresult
      rcases hf with hobject | hsticky
      · cases ev <;> simp [objection?] at hobject
      · exact hp.placed hsticky
  | unplaced _ hd hnone => exact hp.layout hd hnone
  | faulted _ hf =>
      cases hresult
      rcases hf with hrefused | ⟨op, u, hf⟩
      · cases hrefused
      · cases hf
  | finished =>
      obtain ⟨f, hsticky, hf⟩ := Option.map_eq_some_iff.1 hresult
      cases hf
      exact hp.placed hsticky
  | _ => cases hresult

/-- Allocations are numbered one by one as long as the numbers last. -/
theorem Transition.sites_le {n : Nat} (h : e.Transition ev e' result) (hlow : 0 ≤ e.sites)
    (hhigh : e.sites ≤ n) (hn : n < Nat.pow 2 63) : 0 ≤ e'.sites ∧ e'.sites ≤ n + 1 := by
  have hsize : Nat.pow 2 63 = 9223372036854775808 := rfl
  have hstart : (0 : Int) ≤ n + 1 := by omega
  cases h with
  | declared => exact ⟨Int.le_refl 0, hstart⟩
  | misdeclared => exact ⟨Int.le_refl 0, hstart⟩
  | @applied s ins action c _ hperforms happly =>
      have hsites : (e.advanced s c).sites = c.update.site.getD e.sites := rfl
      rw [hsites]
      rcases happly.site_cases hperforms with ⟨-, hpos, hsite⟩ | ⟨-, hsite⟩
      · obtain ⟨hword, -⟩ := word64_eq_of_pos (by omega) (by omega) hpos
        rw [hsite, Option.getD_some, hword]
        omega
      · rw [hsite, Option.getD_none]
        omega
  | _ => exact ⟨hlow, Int.le_trans hhigh (by omega)⟩

theorem Transition.ne_crash (h : e.Transition ev e' result) (hp : e.Promises)
    (hclosed : ev.isClosed) (hlow : 0 ≤ e.sites) (hhigh : e.sites + 1 < Nat.pow 2 63) (c : Crash) :
    result ≠ some (.crash c) := by
  have hsize : (Nat.pow 2 63 : Int) = 9223372036854775808 := rfl
  intro hresult
  cases h with
  | missing hmissing =>
      rcases hmissing with ⟨hphase, hsticky, hnone⟩ | ⟨hphase, hnone⟩
      · have hsome := hp.declared hphase hsticky
        simp [hnone] at hsome
      · have hsome := (hp.coded hphase).1
        simp [hnone] at hsome
  | crashed hphase hsites =>
      rcases hsites with hnone | hsites
      · have hsome := (hp.coded hphase).1
        simp [hnone] at hsome
      · have hword := hsites hclosed
        rw [word64_of_range (by omega) (by omega)] at hword
        omega
  | finished =>
      obtain ⟨f, -, hf⟩ := Option.map_eq_some_iff.1 hresult
      cases hf
  | _ => cases hresult

/-! ## Runs -/

theorem Promises.after (h : e.Promises) (evs : List Event) :
    (Visitor.after Engine.visit e evs).Promises := by
  induction evs generalizing e with
  | nil => exact h
  | cons ev evs ih => exact ih (h.visit ev)

theorem Promises.replies_ne_tooManyParameters (h : e.Promises) (evs : List Event) :
    ∀ r ∈ Visitor.replies Engine.visit e evs, r.result ≠ some (.fault .tooManyParameters) := by
  induction evs generalizing e with
  | nil => nofun
  | cons ev evs ih =>
      intro r hr
      rcases List.mem_cons.1 hr with rfl | hr
      · exact (e.visit_transition ev).ne_tooManyParameters h
      · exact ih (h.visit ev) r hr

/-- Before each event there have been no more allocations than events. -/
theorem Promises.replies_ne_crash {evs : List Event} {n : Nat} (h : e.Promises)
    (hclosed : ∀ ev ∈ evs, ev.isClosed) (hlow : 0 ≤ e.sites) (hhigh : e.sites ≤ n)
    (hcount : n + evs.length < Nat.pow 2 63) :
    ∀ r ∈ Visitor.replies Engine.visit e evs, ∀ c, r.result ≠ some (.crash c) := by
  induction evs generalizing e n with
  | nil => nofun
  | cons ev evs ih =>
      rw [List.length_cons] at hcount
      obtain ⟨hev, hevs⟩ := List.forall_mem_cons.1 hclosed
      have hstep := e.visit_transition ev
      intro r hr
      rcases List.mem_cons.1 hr with rfl | hr
      · exact hstep.ne_crash h hev hlow (by omega)
      · obtain ⟨hlow', hhigh'⟩ := hstep.sites_le hlow hhigh (by omega)
        have hrest : n + 1 + evs.length < Nat.pow 2 63 := by omega
        exact ih (h.visit ev) hevs hlow' hhigh' hrest r hr

end

/-- No sequence of events crashes an engine, and none comes to a body with more names than
parameters. -/
theorem no_event_crashes (config : Config) (evs : List Event) (hclosed : ∀ ev ∈ evs, ev.isClosed)
    (hcount : evs.length < Nat.pow 2 63) :
    (Visitor.after visit (new config) evs).Promises ∧
      ∀ r ∈ Visitor.replies visit (new config) evs,
        (∀ c, r.result ≠ some (.crash c)) ∧ r.result ≠ some (.fault .tooManyParameters) := by
  have hnew := promises_new config
  refine ⟨hnew.after evs, fun r hr => ⟨?_, hnew.replies_ne_tooManyParameters evs r hr⟩⟩
  have hstart : 0 + evs.length < Nat.pow 2 63 := by omega
  exact hnew.replies_ne_crash hclosed (Int.le_refl 0) (Int.le_refl 0) hstart r hr

/-- Events out of order, a declaration that cannot be read, a name too many, and a body with an
allocation, a jump to nowhere and no instruction at all. -/
def disorderly : List Event :=
  [.finish, .code, .method { name := "f", descriptor := "(J" }, .parameter "a" .empty, .code,
    .method { name := "g", descriptor := "(J)V" }, .parameter "a" .empty, .parameter "b" .empty,
    .code, .method { name := "h", descriptor := "(J)V" }, .parameter "a" .empty, .code, .label none,
    .instruction (some (.type .new "A")), .instruction (some (.jump ⟨168⟩ none)), .instruction none,
    .instruction (some (.plain ⟨255⟩)), .finish, .finish]

theorem no_event_crashes_disorderly :
    ((∀ ev ∈ disorderly, ev.isClosed) ∧ disorderly.length < Nat.pow 2 63) ∧
      (Visitor.after visit (new {}) disorderly).Promises ∧
      ∀ r ∈ Visitor.replies visit (new {}) disorderly,
        (∀ c, r.result ≠ some (.crash c)) ∧ r.result ≠ some (.fault .tooManyParameters) := by
  have hclosed : ∀ ev ∈ disorderly, ev.isClosed := by decide
  have hcount : disorderly.length < Nat.pow 2 63 := by decide
  exact ⟨⟨hclosed, hcount⟩, no_event_crashes {} disorderly hclosed hcount⟩

end Engine

end OperandStack
