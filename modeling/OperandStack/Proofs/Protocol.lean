import OperandStack.Engine.Visit

/-!
# Sequences of events

Visitors are given events one after the other. This module has what a visitor has made of a
sequence of events, and which sequences are in order: `Protocol.Conforms` says that a sequence
consists of methods, each of them whole or cut short by the next or by the end of the sequence.

`Protocol.Position.run` follows a sequence with three positions, and
`Protocol.conforms_iff_run` says that it gets through exactly the sequences that are in order.
-/

namespace OperandStack

namespace Visitor

variable {σ : Type}

def after (visit : Visitor σ) (s : σ) (evs : List Event) : σ :=
  evs.foldl (fun s ev => (visit s ev).1) s

def replies (visit : Visitor σ) (s : σ) : List Event → List Reply
  | [] => []
  | ev :: evs => (visit s ev).2 :: visit.replies (visit s ev).1 evs

def AcceptsAll (visit : Visitor σ) (s : σ) (evs : List Event) : Prop :=
  ∀ r ∈ visit.replies s evs, r.result = none

instance (visit : Visitor σ) (s : σ) (evs : List Event) : Decidable (visit.AcceptsAll s evs) :=
  inferInstanceAs (Decidable (∀ r ∈ visit.replies s evs, r.result = none))

@[simp] theorem after_nil (visit : Visitor σ) (s : σ) : visit.after s [] = s := rfl

@[simp] theorem after_cons (visit : Visitor σ) (s : σ) (ev : Event) (evs : List Event) :
    visit.after s (ev :: evs) = visit.after (visit s ev).1 evs := rfl

theorem after_append (visit : Visitor σ) (s : σ) (evs rest : List Event) :
    visit.after s (evs ++ rest) = visit.after (visit.after s evs) rest :=
  List.foldl_append

theorem after_snoc (visit : Visitor σ) (s : σ) (evs : List Event) (ev : Event) :
    visit.after s (evs ++ [ev]) = (visit (visit.after s evs) ev).1 :=
  after_append visit s evs [ev]

theorem acceptsAll_cons (visit : Visitor σ) (s : σ) (ev : Event) (evs : List Event) :
    visit.AcceptsAll s (ev :: evs) ↔
      (visit s ev).2.result = none ∧ visit.AcceptsAll (visit s ev).1 evs :=
  List.forall_mem_cons

/-- Keeps the events that a visitor is given. -/
def logged (visit : Visitor σ) : Visitor (σ × List Event) := fun (s, log) ev =>
  let (s, reply) := visit s ev
  ((s, log ++ [ev]), reply)

end Visitor

namespace Event

def isParameter : Event → Bool
  | .parameter _ _ => true
  | _ => false

def isElement : Event → Bool
  | .instruction _ => true
  | .label _ => true
  | _ => false

end Event

namespace Protocol

/-- The events of a method from its declaration to its end, with or without a body. -/
inductive Whole : List Event → Prop
  | declaration {m : MethodInfo} {params : List Event} :
      (∀ ev ∈ params, ev.isParameter) → Whole (.method m :: params ++ [.finish])
  | body {m : MethodInfo} {params elements : List Event} :
      (∀ ev ∈ params, ev.isParameter) → (∀ ev ∈ elements, ev.isElement) →
      Whole (.method m :: params ++ .code :: elements ++ [.finish])

def Part (evs : List Event) : Prop := evs ≠ [] ∧ ∃ whole, Whole whole ∧ evs <+: whole

/-- The events are those of methods one after the other. -/
def Conforms (evs : List Event) : Prop :=
  ∃ parts : List (List Event), (∀ part ∈ parts, Part part) ∧ parts.flatten = evs

theorem conforms_nil : Conforms [] := ⟨[], by simp⟩

theorem Part.conforms {evs : List Event} (h : Part evs) : Conforms evs :=
  ⟨[evs], by simpa using h⟩

theorem Whole.conforms {evs : List Event} (h : Whole evs) : Conforms evs := by
  refine Part.conforms ⟨?_, evs, h, List.prefix_rfl⟩
  cases h <;> simp

theorem Conforms.append {evs rest : List Event} (h : Conforms evs) (hrest : Conforms rest) :
    Conforms (evs ++ rest) := by
  obtain ⟨parts, hparts, rfl⟩ := h
  obtain ⟨more, hmore, rfl⟩ := hrest
  refine ⟨parts ++ more, ?_, List.flatten_append⟩
  intro part hpart
  rcases List.mem_append.1 hpart with hmem | hmem
  · exact hparts part hmem
  · exact hmore part hmem

inductive Position where
  | outside
  | declared
  | coded
deriving DecidableEq, Repr

namespace Position

def next : Position → Event → Option Position
  | _, .method _ => some .declared
  | .declared, .parameter _ _ => some .declared
  | .declared, .code => some .coded
  | .declared, .finish => some .outside
  | .coded, .instruction _ => some .coded
  | .coded, .label _ => some .coded
  | .coded, .finish => some .outside
  | _, _ => none

theorem next_finish {p q : Position} (h : p.next .finish = some q) :
    p ≠ .outside ∧ q = .outside := by
  cases p <;> cases h <;> exact ⟨by simp, rfl⟩

/-- The position after some events, unless one of them is out of order. -/
def run (p : Position) (evs : List Event) : Option Position := evs.foldlM next p

@[simp] theorem run_nil (p : Position) : p.run [] = some p := rfl

theorem run_cons (p : Position) (ev : Event) (evs : List Event) :
    p.run (ev :: evs) = (p.next ev).bind fun q => q.run evs := rfl

theorem run_append (p : Position) (evs rest : List Event) :
    p.run (evs ++ rest) = (p.run evs).bind fun q => q.run rest :=
  List.foldlM_append

theorem run_eq_self {p : Position} {evs : List Event} (h : ∀ ev ∈ evs, p.next ev = some p) :
    p.run evs = some p := by
  induction evs with
  | nil => rfl
  | cons ev evs ih =>
      rw [List.forall_mem_cons] at h
      rw [run_cons, h.1]
      exact ih h.2

theorem next_of_isParameter {ev : Event} (h : ev.isParameter) :
    next .declared ev = some .declared := by
  cases ev <;> simp [Event.isParameter] at h
  rfl

theorem next_of_isElement {ev : Event} (h : ev.isElement) : next .coded ev = some .coded := by
  cases ev <;> simp [Event.isElement] at h <;> rfl

theorem run_declaration (p : Position) (m : MethodInfo) {params : List Event}
    (h : ∀ ev ∈ params, ev.isParameter) : p.run (.method m :: params) = some .declared := by
  rw [run_cons]
  exact run_eq_self fun ev hev => next_of_isParameter (h ev hev)

theorem run_code {elements : List Event} (h : ∀ ev ∈ elements, ev.isElement) :
    run .declared (.code :: elements) = some .coded := by
  rw [run_cons]
  exact run_eq_self fun ev hev => next_of_isElement (h ev hev)

/-- A whole method can come at any time, as it begins with a declaration. -/
theorem run_whole (p : Position) {evs : List Event} (h : Whole evs) :
    p.run evs = some .outside := by
  cases h with
  | declaration hparams =>
      rw [run_append, run_declaration p _ hparams]
      rfl
  | body hparams helements =>
      rw [run_append, run_append, run_declaration p _ hparams, Option.bind_some,
        run_code helements]
      rfl

theorem isSome_run_part (p : Position) {evs : List Event} (h : Part evs) :
    (p.run evs).isSome := by
  obtain ⟨-, whole, hwhole, rest, rfl⟩ := h
  have hrun := p.run_whole hwhole
  rw [run_append] at hrun
  cases hevs : p.run evs with
  | none =>
      rw [hevs] at hrun
      cases hrun
  | some q => rfl

theorem isSome_run_flatten (p : Position) {parts : List (List Event)}
    (h : ∀ part ∈ parts, Part part) : (p.run parts.flatten).isSome := by
  induction parts generalizing p with
  | nil => rfl
  | cons part parts ih =>
      rw [List.forall_mem_cons] at h
      obtain ⟨q, hq⟩ := Option.isSome_iff_exists.1 (p.isSome_run_part h.1)
      rw [List.flatten_cons, run_append, hq]
      exact ih q h.2

end Position

/-- The beginning of a method that is open at a position. -/
inductive Opening : Position → List Event → Prop
  | outside : Opening .outside []
  | declared {m : MethodInfo} {params : List Event} :
      (∀ ev ∈ params, ev.isParameter) → Opening .declared (.method m :: params)
  | coded {m : MethodInfo} {params elements : List Event} :
      (∀ ev ∈ params, ev.isParameter) → (∀ ev ∈ elements, ev.isElement) →
      Opening .coded (.method m :: params ++ .code :: elements)

namespace Opening

theorem conforms {p : Position} {start : List Event} (h : Opening p start) : Conforms start := by
  cases h with
  | outside => exact conforms_nil
  | declared hparams =>
      exact Part.conforms ⟨by simp, _, .declaration hparams, List.prefix_append _ _⟩
  | coded hparams helements =>
      exact Part.conforms ⟨by simp, _, .body hparams helements, List.prefix_append _ _⟩

theorem parameter {start : List Event} {ev : Event} (h : Opening .declared start)
    (hev : ev.isParameter) : Opening .declared (start ++ [ev]) := by
  cases h with
  | declared hparams =>
      have hall := List.forall_mem_append.2 ⟨hparams, List.forall_mem_singleton.2 hev⟩
      exact .declared hall

theorem code {start : List Event} (h : Opening .declared start) :
    Opening .coded (start ++ [.code]) := by
  cases h with
  | declared hparams => exact .coded hparams (by simp)

theorem element {start : List Event} {ev : Event} (h : Opening .coded start)
    (hev : ev.isElement) : Opening .coded (start ++ [ev]) := by
  cases h with
  | coded hparams helements =>
      have hall := List.forall_mem_append.2 ⟨helements, List.forall_mem_singleton.2 hev⟩
      rw [List.append_assoc]
      exact .coded hparams hall

theorem finish {p : Position} {start : List Event} (h : Opening p start) (hp : p ≠ .outside) :
    Whole (start ++ [.finish]) := by
  cases h with
  | outside => exact absurd rfl hp
  | declared hparams => exact .declaration hparams
  | coded hparams helements => exact .body hparams helements

/-- With the next event, something that conforms is left behind and the rest is open. -/
theorem next {p q : Position} {start : List Event} {ev : Event} (h : Opening p start)
    (hnext : p.next ev = some q) :
    ∃ done rest, start ++ [ev] = done ++ rest ∧ Conforms done ∧ Opening q rest := by
  -- A declaration cuts short what is open; an end completes it; all else extends it.
  cases ev with
  | method m =>
      cases hnext
      exact ⟨start, [.method m], rfl, h.conforms, .declared (by simp)⟩
  | finish =>
      obtain ⟨hp, rfl⟩ := Position.next_finish hnext
      exact ⟨_, [], (List.append_nil _).symm, (h.finish hp).conforms, .outside⟩
  | parameter name access =>
      cases p <;> cases hnext
      exact ⟨[], _, rfl, conforms_nil, h.parameter rfl⟩
  | code =>
      cases p <;> cases hnext
      exact ⟨[], _, rfl, conforms_nil, h.code⟩
  | instruction ins =>
      cases p <;> cases hnext
      exact ⟨[], _, rfl, conforms_nil, h.element rfl⟩
  | label name =>
      cases p <;> cases hnext
      exact ⟨[], _, rfl, conforms_nil, h.element rfl⟩

theorem conforms_of_run {p : Position} {start evs : List Event} (h : Opening p start)
    (hrun : (p.run evs).isSome) : Conforms (start ++ evs) := by
  induction evs generalizing p start with
  | nil =>
      rw [List.append_nil]
      exact h.conforms
  | cons ev evs ih =>
      rw [Position.run_cons] at hrun
      cases hnext : p.next ev with
      | none =>
          rw [hnext] at hrun
          cases hrun
      | some q =>
          rw [hnext] at hrun
          obtain ⟨done, start', heq, hdone, hopen⟩ := h.next hnext
          have hsplit : start ++ ev :: evs = done ++ (start' ++ evs) := by
            rw [List.append_cons, heq, List.append_assoc]
          rw [hsplit]
          exact hdone.append (ih hopen hrun)

end Opening

/-- The positions tell the sequences that are in order from all others. -/
theorem conforms_iff_run (evs : List Event) :
    Conforms evs ↔ (Position.run .outside evs).isSome := by
  constructor
  · rintro ⟨parts, hparts, rfl⟩
    exact Position.isSome_run_flatten .outside hparts
  · intro hrun
    exact Opening.outside.conforms_of_run hrun

instance (evs : List Event) : Decidable (Conforms evs) :=
  decidable_of_iff _ (conforms_iff_run evs).symm

end Protocol

end OperandStack
