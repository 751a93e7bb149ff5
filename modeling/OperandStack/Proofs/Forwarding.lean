import OperandStack.Proofs.Outcome
import OperandStack.Proofs.Protocol

/-!
# What an engine passes on

An engine checks whether an event is in order before it passes the event on, and its own phase
is all it goes by. The phase falls behind where a method is misdeclared: the code of such a
method is passed on, the engine refuses it and waits for code still. `Protocol.Exposed` tells
which events lead there. From then on to the end of the method a second code event and late
parameter names are passed on too (`Protocol.Overrun`), and nothing else puts what is passed on
out of order.
-/

namespace OperandStack

/-- No descriptor goes with so many parameter names: it is ill-formed or has fewer parameters. -/
def MethodInfo.Misdeclared (m : MethodInfo) (named : Nat) : Prop :=
  ∀ d, MethodDescriptor.parse m.descriptor = .ok d → d.params.length < named

instance (m : MethodInfo) (named : Nat) : Decidable (m.Misdeclared named) :=
  match hparse : MethodDescriptor.parse m.descriptor with
  | .error _ => .isTrue fun d hd => by rw [hparse] at hd; cases hd
  | .ok d =>
      decidable_of_iff (d.params.length < named)
        ⟨fun hlt d' hd' => by rw [hparse] at hd'; cases hd'; exact hlt, fun hmis => hmis d hparse⟩

def Event.isInner : Event → Bool
  | .method _ => false
  | .finish => false
  | _ => true

theorem Event.isInner_of_isElement {ev : Event} (h : ev.isElement) : ev.isInner := by
  cases ev <;> simp [isElement] at h <;> rfl

namespace Protocol

/-- The last declaration is that of `m`; since then there have been `named` parameter names,
but neither code nor an end. -/
inductive Declaring : List Event → MethodInfo → Nat → Prop
  | method {hist : List Event} {m : MethodInfo} : Declaring (hist ++ [.method m]) m 0
  | parameter {hist : List Event} {m : MethodInfo} {named : Nat} {name : Text} {access : Access} :
      Declaring hist m named → Declaring (hist ++ [.parameter name access]) m (named + 1)
  | element {hist : List Event} {m : MethodInfo} {named : Nat} {ev : Event} :
      Declaring hist m named → ev.isElement → Declaring (hist ++ [ev]) m named

/-- The last method was misdeclared, code came all the same, and the method has not ended. -/
inductive Exposed : List Event → Prop
  | code {hist : List Event} {m : MethodInfo} {named : Nat} :
      Declaring hist m named → m.Misdeclared named → Exposed (hist ++ [.code])
  | inner {hist : List Event} {ev : Event} :
      Exposed hist → ev.isInner → Exposed (hist ++ [ev])

/-- Code or a parameter name where the code of a misdeclared method has been already. -/
def Overrun (evs : List Event) : Prop :=
  ∃ hist ev rest, evs = hist ++ ev :: rest ∧ Exposed hist ∧ (ev = .code ∨ ev.isParameter)

theorem Overrun.append {evs : List Event} (h : Overrun evs) (more : List Event) :
    Overrun (evs ++ more) := by
  obtain ⟨hist, ev, rest, rfl, hexposed, hev⟩ := h
  exact ⟨hist, ev, rest ++ more, by simp, hexposed, hev⟩

end Protocol

open Protocol

namespace Engine

/-! ## The engine in the course of a method -/

/-- An engine that has seen the declaration of `m` and `named` parameter names. -/
structure Declares (e : Engine) (m : MethodInfo) (named : Nat) : Prop where
  phase : e.phase = .inMethod
  fits : ∀ d, MethodDescriptor.parse m.descriptor = .ok d → named ≤ d.params.length →
    e.sticky = none ∧ e.descriptor = some d ∧ e.names.length = named
  misfits : m.Misdeclared named → ∃ f, e.sticky = some f

/-- A stopped engine that waits for code. -/
structure Stuck (e : Engine) : Prop where
  phase : e.phase = .inMethod
  sticky : ∃ f, e.sticky = some f

structure Running (e : Engine) : Prop where
  phase : e.phase = .inCode
  stack : ∃ s, e.stack = some s

section
variable {e : Engine} {m : MethodInfo} {named : Nat}

theorem Declares.stuck (h : e.Declares m named) (hmis : m.Misdeclared named) : e.Stuck :=
  ⟨h.phase, h.misfits hmis⟩

theorem exists_of_not_misdeclared (h : ¬ m.Misdeclared named) :
    ∃ d, MethodDescriptor.parse m.descriptor = .ok d ∧ named ≤ d.params.length := by
  simpa [MethodInfo.Misdeclared] using h

theorem receiveMethod_declares (e : Engine) (m : MethodInfo) :
    (e.receiveMethod m).1.Declares m 0 := by
  unfold receiveMethod declare
  cases hparse : MethodDescriptor.parse m.descriptor with
  | error err =>
      refine ⟨rfl, ?_, fun _ => ⟨_, rfl⟩⟩
      intro d hd
      rw [hparse] at hd
      cases hd
  | ok d =>
      refine ⟨rfl, ?_, ?_⟩
      · intro d' hd' _
        rw [hparse] at hd'
        cases hd'
        exact ⟨rfl, rfl, rfl⟩
      · intro hmis
        exact absurd (hmis d hparse) (Nat.not_lt_zero _)

theorem Declares.parameter (h : e.Declares m named) (name : Text) :
    (e.receiveParameter name).1.Declares m (named + 1) := by
  by_cases hmis : m.Misdeclared named
  · obtain ⟨f, hf⟩ := h.misfits hmis
    have hsame : (e.receiveParameter name).1 = e := by simp only [receiveParameter, hf]
    rw [hsame]
    refine ⟨h.phase, ?_, fun _ => ⟨f, hf⟩⟩
    intro d hd hle
    have hlt := hmis d hd
    omega
  · obtain ⟨d, hparse, hle⟩ := exists_of_not_misdeclared hmis
    obtain ⟨hsticky, hdesc, hnames⟩ := h.fits d hparse hle
    simp only [receiveParameter, hsticky, hdesc, hnames]
    -- The name beyond the last parameter is the one that stops the engine.
    split
    · next hfull =>
      refine ⟨h.phase, ?_, fun _ => ⟨_, rfl⟩⟩
      intro d' hd' hle'
      rw [hparse] at hd'
      cases hd'
      omega
    · next hroom =>
      refine ⟨h.phase, ?_, ?_⟩
      · intro d' hd' _
        rw [hparse] at hd'
        cases hd'
        exact ⟨rfl, rfl, by simp [hnames]⟩
      · intro hmis'
        have hlt := hmis' d hparse
        omega

theorem Declares.code (h : e.Declares m named) (hfit : ¬ m.Misdeclared named) :
    e.receiveCode.1.Running := by
  obtain ⟨d, hparse, hle⟩ := exists_of_not_misdeclared hfit
  obtain ⟨hsticky, hdesc, hnames⟩ := h.fits d hparse hle
  have hlayout : ¬ d.params.length < e.names.length := by omega
  simp only [receiveCode, hsticky, hdesc, LocalLayout.ofMethod?, if_neg hlayout]
  exact ⟨rfl, _, rfl⟩

theorem Stuck.visit_inner (h : e.Stuck) {ev : Event} (hev : ev.isInner) : (e.visit ev).1 = e := by
  obtain ⟨f, hf⟩ := h.sticky
  have hphase := h.phase
  cases ev with
  | method m => cases hev
  | finish => cases hev
  | parameter name access => simp [visit, objection?, receive, receiveParameter, hphase, hf]
  | code => simp [visit, objection?, receive, receiveCode, hphase, hf]
  | instruction ins => simp [visit, objection?, hphase]
  | label name => simp [visit, objection?, hphase]

/-- Whatever comes of an instruction, there is a stack afterwards and the phase is the same. -/
theorem Outcome.running {index : Nat} {s : Operands} {ins : Option Instruction}
    {r : Engine × Option Stop} (h : e.Outcome index s ins r) (hphase : e.phase = .inCode)
    (hstack : e.stack = some s) : r.1.Running := by
  cases h with
  | applied => exact ⟨hphase, _, rfl⟩
  | lacking => exact ⟨hphase, s, hstack⟩
  | refused => exact ⟨hphase, s, hstack⟩
  | crashed => exact ⟨hphase, _, rfl⟩

theorem Running.instruction (h : e.Running) (ins : Option Instruction) :
    (e.receiveInstruction ins).1.Running := by
  obtain ⟨s, hs⟩ := h.stack
  have hout := (apply_outcome (e := e.counted) hs e.count ins).running h.phase hs
  cases hsticky : e.sticky with
  | some f =>
      have hsame : (e.receiveInstruction ins).1 = e := by simp only [receiveInstruction, hsticky]
      rw [hsame]
      exact h
  | none =>
      rw [receiveInstruction_eq hsticky]
      split
      · next e' happly =>
        rw [happly] at hout
        rw [applied_engine]
        exact ⟨hout.phase, hout.stack⟩
      · next e' f happly =>
        rw [happly] at hout
        exact ⟨hout.phase, hout.stack⟩
      · next e' c happly =>
        rw [happly] at hout
        exact hout

theorem Running.label (h : e.Running) : e.receiveLabel.1.Running := by
  unfold receiveLabel
  split
  · exact h
  · exact ⟨h.phase, h.stack⟩

theorem receiveFinish_of_ne_inCode (h : e.phase ≠ .inCode) :
    e.receiveFinish.1.phase = .unattached := by
  unfold receiveFinish
  split
  · next hcode => exact absurd hcode h
  · rfl

theorem Running.finish (h : e.Running) : e.receiveFinish.1.phase = .unattached := by
  obtain ⟨s, hs⟩ := h.stack
  simp only [receiveFinish, h.phase, hs]

end

/-! ## The events passed on -/

/-- An event is passed on if the engine has nothing to object. -/
def admits (e : Engine) (ev : Event) : Bool := (e.objection? ev).isNone

/-- The events that an engine passes on if none of them is refused behind it. -/
def admitted (e : Engine) : List Event → List Event
  | [] => []
  | ev :: evs => (if e.admits ev then [ev] else []) ++ (e.visit ev).1.admitted evs

theorem admitted_append (e : Engine) (evs rest : List Event) :
    e.admitted (evs ++ rest) = e.admitted evs ++ (Visitor.after visit e evs).admitted rest := by
  induction evs generalizing e with
  | nil => rfl
  | cons ev evs ih =>
      rw [List.cons_append, admitted, admitted, ih, List.append_assoc]
      rfl

theorem admitted_snoc (e : Engine) (evs : List Event) (ev : Event) :
    e.admitted (evs ++ [ev]) =
      e.admitted evs ++ if (Visitor.after visit e evs).admits ev then [ev] else [] := by
  rw [admitted_append, admitted, admitted, List.append_nil]

section
variable {e : Engine} {ev : Event}

theorem visit_of_admits (h : e.admits ev) : e.visit ev = e.receive ev :=
  visit_eq_receive (Option.isNone_iff_eq_none.1 h)

theorem visit_of_not_admits (h : e.admits ev = false) : (e.visit ev).1 = e := by
  unfold visit
  split
  · rfl
  · next hnone =>
    rw [admits, hnone] at h
    cases h

theorem admits_of_unattached (hphase : e.phase = .unattached) (h : e.admits ev) :
    ∃ m, ev = .method m := by
  cases ev <;> simp [admits, objection?, hphase] at h ⊢

theorem admits_of_inMethod (hphase : e.phase = .inMethod) (ev : Event) :
    e.admits ev = !ev.isElement := by
  cases ev <;> simp [admits, objection?, hphase, Event.isElement]

theorem admits_of_inCode (hphase : e.phase = .inCode) (ev : Event) :
    e.admits ev = (ev.isElement || !ev.isInner) := by
  cases ev <;> simp [admits, objection?, hphase, Event.isElement, Event.isInner]

end

section
variable {σ : Type} {e : Engine} {ev : Event} (next : Visitor σ) (s : σ)

theorem behind_of_not_admits (h : e.admits ev = false) : (behind next (e, s) ev).1 = (e, s) := by
  simp only [behind, relay]
  split
  · rfl
  · next hnone =>
    rw [admits, hnone] at h
    cases h

theorem behind_of_admits (h : e.admits ev) :
    (behind next (e, s) ev).1.2 = (next s ev).1 ∧
      ((next s ev).2.result = none → (behind next (e, s) ev).1.1 = (e.receive ev).1) := by
  have hnone := Option.isNone_iff_eq_none.1 h
  simp only [behind, relay, hnone]
  split
  · next hrefused => exact ⟨rfl, fun haccept => by rw [haccept] at hrefused; cases hrefused⟩
  · exact ⟨rfl, fun _ => rfl⟩

/-- The events that an engine passes on to the visitor behind it. -/
def forwarded (e : Engine) (next : Visitor σ) (s : σ) (evs : List Event) : List Event :=
  (Visitor.after (behind next.logged) (e, s, []) evs).2.2

/-- A log only grows, and what it grows by is what the engine admits, if all of it is
accepted. -/
theorem logged_after (evs : List Event) (e : Engine) (next : Visitor σ) (s : σ)
    (log : List Event) :
    ∃ out, (Visitor.after (behind next.logged) (e, s, log) evs).2.2 = log ++ out ∧
      (next.AcceptsAll s out → out = e.admitted evs) := by
  -- A refused event is in the log as well, but leaves the engine where it was.
  induction evs generalizing e s log with
  | nil => exact ⟨[], by simp, fun _ => rfl⟩
  | cons ev evs ih =>
      rw [Visitor.after_cons]
      cases hadmits : e.admits ev with
      | false =>
          rw [behind_of_not_admits _ _ hadmits]
          obtain ⟨out, hlog, hout⟩ := ih e s log
          refine ⟨out, hlog, ?_⟩
          intro haccepts
          rw [hout haccepts, admitted, hadmits, visit_of_not_admits hadmits]
          rfl
      | true =>
          obtain ⟨hstate, hreceive⟩ := behind_of_admits next.logged (s, log) hadmits
          obtain ⟨out, hlog, hout⟩ :=
            ih (behind next.logged (e, s, log) ev).1.1 (next s ev).1 (log ++ [ev])
          refine ⟨ev :: out, ?_, ?_⟩
          · rw [List.append_cons, ← hlog]
            exact congrArg (fun t => (Visitor.after (behind next.logged)
              ((behind next.logged (e, s, log) ev).1.1, t) evs).2.2) hstate
          · intro haccepts
            obtain ⟨haccept, hrest⟩ := (next.acceptsAll_cons s ev out).1 haccepts
            rw [hout hrest, hreceive haccept, admitted, hadmits, visit_of_admits hadmits]
            rfl

theorem forwarded_eq_admitted {evs : List Event}
    (h : next.AcceptsAll s (e.forwarded next s evs)) :
    e.forwarded next s evs = e.admitted evs := by
  obtain ⟨out, hlog, hout⟩ := logged_after evs e next s []
  have hforwarded : e.forwarded next s evs = out := hlog
  rw [hforwarded] at h ⊢
  exact hout h

end

/-! ## The order of the events passed on -/

/-- How the phase of an engine follows the events it was given and those it has passed on. -/
inductive Follows : List Event → Engine → Position → Prop
  | outside {hist : List Event} {e : Engine} :
      e.phase = .unattached → Follows hist e .outside
  | declared {hist : List Event} {e : Engine} {m : MethodInfo} {named : Nat} :
      Declaring hist m named → e.Declares m named → Follows hist e .declared
  | exposed {hist : List Event} {e : Engine} :
      Exposed hist → e.Stuck → Follows hist e .coded
  | coded {hist : List Event} {e : Engine} : e.Running → Follows hist e .coded

section
variable {hist : List Event} {e : Engine} {p q : Position} {ev : Event}

theorem Follows.refused (h : Follows hist e p) (hadmits : e.admits ev = false) :
    Follows (hist ++ [ev]) e p := by
  cases h with
  | outside hphase => exact .outside hphase
  | declared hdecl he =>
      have hev : ev.isElement := by simpa [admits_of_inMethod he.phase] using hadmits
      exact .declared (hdecl.element hev) he
  | exposed hexposed hstuck =>
      have hev : ev.isElement := by simpa [admits_of_inMethod hstuck.phase] using hadmits
      exact .exposed (hexposed.inner (Event.isInner_of_isElement hev)) hstuck
  | coded hrun => exact .coded hrun

theorem Follows.finish (h : Follows hist e p) (hp : p ≠ .outside) :
    e.receiveFinish.1.phase = .unattached := by
  cases h with
  | outside => exact absurd rfl hp
  | declared _ he => exact receiveFinish_of_ne_inCode (by simp [he.phase])
  | exposed _ hstuck => exact receiveFinish_of_ne_inCode (by simp [hstuck.phase])
  | coded hrun => exact hrun.finish

theorem Follows.admitted (h : Follows hist e p) (hadmits : e.admits ev)
    (hnext : p.next ev = some q) : Follows (hist ++ [ev]) (e.receive ev).1 q := by
  cases ev with
  | method m =>
      cases hnext
      exact .declared .method (receiveMethod_declares e m)
  | finish =>
      obtain ⟨hp, rfl⟩ := Position.next_finish hnext
      exact .outside (h.finish hp)
  | parameter name access =>
      cases p <;> cases hnext
      cases h with
      | declared hdecl he => exact .declared hdecl.parameter (he.parameter name)
  | code =>
      cases p <;> cases hnext
      cases h with
      | @declared m named hdecl he =>
          by_cases hmis : m.Misdeclared named
          · have hstuck := he.stuck hmis
            have hsame : (e.receive .code).1 = e := by
              rw [← visit_of_admits hadmits]
              exact hstuck.visit_inner rfl
            rw [hsame]
            exact .exposed (.code hdecl hmis) hstuck
          · exact .coded (he.code hmis)
  | instruction ins =>
      cases p <;> cases hnext
      cases h with
      | exposed _ hstuck => simp [admits_of_inMethod hstuck.phase, Event.isElement] at hadmits
      | coded hrun => exact .coded (hrun.instruction ins)
  | label name =>
      cases p <;> cases hnext
      cases h with
      | exposed _ hstuck => simp [admits_of_inMethod hstuck.phase, Event.isElement] at hadmits
      | coded hrun => exact .coded hrun.label

/-- Only an exposed engine passes something on that is out of order. -/
theorem Follows.overrun (h : Follows hist e p) (hadmits : e.admits ev)
    (hnext : p.next ev = none) : Overrun (hist ++ [ev]) := by
  cases h with
  | outside hphase =>
      obtain ⟨m, rfl⟩ := admits_of_unattached hphase hadmits
      cases hnext
  | declared _ he =>
      rw [admits_of_inMethod he.phase] at hadmits
      cases ev <;> simp [Event.isElement, Position.next] at hadmits hnext
  | exposed hexposed hstuck =>
      rw [admits_of_inMethod hstuck.phase] at hadmits
      refine ⟨hist, ev, [], rfl, hexposed, ?_⟩
      cases ev <;> simp [Event.isElement, Event.isParameter, Position.next] at hadmits hnext ⊢
  | coded hrun =>
      rw [admits_of_inCode hrun.phase] at hadmits
      cases ev <;> simp [Event.isElement, Event.isInner, Position.next] at hadmits hnext

theorem Follows.run_or_overrun (h : Follows hist e p) (evs : List Event) :
    (p.run (e.admitted evs)).isSome ∨ Overrun (hist ++ evs) := by
  -- By induction on the events to come; each of them joins the history.
  induction evs generalizing hist e p with
  | nil => exact .inl rfl
  | cons ev evs ih =>
      rw [List.append_cons, Engine.admitted]
      cases hadmits : e.admits ev with
      | false =>
          rw [visit_of_not_admits hadmits]
          exact ih (h.refused hadmits)
      | true =>
          rw [visit_of_admits hadmits, if_pos rfl, List.singleton_append, Position.run_cons]
          cases hnext : p.next ev with
          | none => exact .inr ((h.overrun hadmits hnext).append evs)
          | some q => exact ih (h.admitted hadmits hnext)

end

section
variable {hist : List Event}

theorem declares_of_declaring {m : MethodInfo} {named : Nat} (h : Declaring hist m named)
    (e : Engine) : (Visitor.after visit e hist).Declares m named := by
  induction h with
  | method =>
      rw [Visitor.after_snoc]
      exact receiveMethod_declares _ _
  | @parameter hist m named name access _ ih =>
      rw [Visitor.after_snoc, visit_of_admits (by rw [admits_of_inMethod ih.phase]; rfl)]
      exact ih.parameter name
  | @element hist m named ev _ hev ih =>
      rw [Visitor.after_snoc, visit_of_not_admits (by rw [admits_of_inMethod ih.phase, hev]; rfl)]
      exact ih

theorem stuck_of_exposed (h : Exposed hist) (e : Engine) : (Visitor.after visit e hist).Stuck := by
  induction h with
  | code hdecl hmis =>
      have hstuck := (declares_of_declaring hdecl e).stuck hmis
      rw [Visitor.after_snoc, hstuck.visit_inner rfl]
      exact hstuck
  | inner _ hev ih =>
      rw [Visitor.after_snoc, ih.visit_inner hev]
      exact ih

theorem run_admitted_of_admits {e : Engine} {p q : Position} {ev : Event}
    (hadmits : (Visitor.after visit e hist).admits ev)
    (hrun : p.run (e.admitted (hist ++ [ev])) = some q) :
    ∃ q', p.run (e.admitted hist) = some q' ∧ q'.next ev = some q := by
  rw [admitted_snoc, if_pos hadmits, Position.run_append] at hrun
  obtain ⟨q', hq', hlast⟩ := Option.bind_eq_some_iff.1 hrun
  rw [Position.run_cons] at hlast
  obtain ⟨q'', hnext, hdone⟩ := Option.bind_eq_some_iff.1 hlast
  cases hdone
  exact ⟨q', hq', hnext⟩

theorem run_admitted_of_not_admits {e : Engine} {p : Position} {ev : Event}
    (hadmits : (Visitor.after visit e hist).admits ev = false) :
    p.run (e.admitted (hist ++ [ev])) = p.run (e.admitted hist) := by
  rw [admitted_snoc, hadmits, if_neg Bool.false_ne_true, List.append_nil]

theorem declared_of_declaring {m : MethodInfo} {named : Nat} (h : Declaring hist m named)
    (e : Engine) {p q : Position} (hrun : p.run (e.admitted hist) = some q) : q = .declared := by
  induction h generalizing q with
  | method =>
      obtain ⟨q', -, hnext⟩ := run_admitted_of_admits rfl hrun
      cases hnext
      rfl
  | parameter hdecl ih =>
      have hphase := (declares_of_declaring hdecl e).phase
      obtain ⟨q', hq', hnext⟩ := run_admitted_of_admits (admits_of_inMethod hphase _) hrun
      obtain rfl := ih hq'
      cases hnext
      rfl
  | @element hist m named ev hdecl hev ih =>
      have hphase := (declares_of_declaring hdecl e).phase
      have hadmits : (Visitor.after visit e hist).admits ev = false := by
        rw [admits_of_inMethod hphase, hev]
        rfl
      rw [run_admitted_of_not_admits hadmits] at hrun
      exact ih hrun

theorem coded_of_exposed (h : Exposed hist) (e : Engine) {p q : Position}
    (hrun : p.run (e.admitted hist) = some q) : q = .coded := by
  induction h generalizing q with
  | code hdecl hmis =>
      have hphase := (declares_of_declaring hdecl e).phase
      obtain ⟨q', hq', hnext⟩ := run_admitted_of_admits (admits_of_inMethod hphase _) hrun
      obtain rfl := declared_of_declaring hdecl e hq'
      cases hnext
      rfl
  | @inner hist ev hexposed hev ih =>
      have hadmits := admits_of_inMethod (stuck_of_exposed hexposed e).phase ev
      cases helement : ev.isElement with
      | true =>
          rw [helement] at hadmits
          rw [run_admitted_of_not_admits hadmits] at hrun
          exact ih hrun
      | false =>
          -- Code and parameter names are passed on here, and after code both are out of order.
          rw [helement] at hadmits
          obtain ⟨q', hq', hnext⟩ := run_admitted_of_admits hadmits hrun
          obtain rfl := ih hq'
          cases ev <;> simp [Event.isElement, Event.isInner, Position.next] at helement hev hnext

theorem run_eq_none_of_overrun {evs : List Event} (h : Overrun evs) (e : Engine) (p : Position) :
    p.run (e.admitted evs) = none := by
  obtain ⟨hist, ev, rest, rfl, hexposed, hev⟩ := h
  rw [admitted_append, Position.run_append]
  cases hrun : p.run (e.admitted hist) with
  | none => rfl
  | some q =>
      obtain rfl := coded_of_exposed hexposed e hrun
      have hphase := (stuck_of_exposed hexposed e).phase
      rw [Option.bind_some, admitted, admits_of_inMethod hphase]
      rcases hev with rfl | hparam
      · rfl
      · cases ev <;> simp [Event.isParameter] at hparam
        rfl

end

/-- What an engine passes on is in order, unless the code of a misdeclared method is followed by
code or a parameter name before the method ends. -/
theorem forwarded_conforms_iff {σ : Type} (config : Config) (next : Visitor σ) (s : σ)
    (evs : List Event) (haccepts : next.AcceptsAll s ((new config).forwarded next s evs)) :
    Conforms ((new config).forwarded next s evs) ↔ ¬ Overrun evs := by
  rw [forwarded_eq_admitted next s haccepts, conforms_iff_run]
  constructor
  · intro hrun hoverrun
    rw [run_eq_none_of_overrun hoverrun] at hrun
    cases hrun
  · intro hover
    have hfollows : Follows [] (new config) .outside := .outside rfl
    exact (hfollows.run_or_overrun evs).resolve_right hover

/-- A method of one parameter that is given two names, and a third one after its code. -/
def lateName : List Event :=
  [.method { name := "m", descriptor := "(I)V" }, .parameter "a" .empty, .parameter "b" .empty,
    .code, .label none, .parameter "c" .empty, .finish]

theorem overrun_lateName : Overrun lateName := by
  have hdeclared := @Declaring.method [] { name := "m", descriptor := "(I)V" }
  have hfirst := @Declaring.parameter _ _ _ "a" .empty hdeclared
  have hsecond := @Declaring.parameter _ _ _ "b" .empty hfirst
  have hmis : MethodInfo.Misdeclared { name := "m", descriptor := "(I)V" } 2 := by decide +kernel
  have hexposed := @Exposed.inner _ (.label none) (.code hsecond hmis) rfl
  exact ⟨_, .parameter "c" .empty, [.finish], rfl, hexposed, .inr rfl⟩

/-- The third name is passed on, though the code was before it. -/
theorem forwarded_conforms_iff_lateName :
    Visitor.AcceptsAll Recorder.visit {} ((new {}).forwarded Recorder.visit {} lateName) ∧
      Overrun lateName ∧ ¬ Conforms ((new {}).forwarded Recorder.visit {} lateName) := by
  have haccepts : Visitor.AcceptsAll Recorder.visit {}
      ((new {}).forwarded Recorder.visit {} lateName) := by decide +kernel
  refine ⟨haccepts, overrun_lateName, ?_⟩
  intro hconforms
  exact (forwarded_conforms_iff {} Recorder.visit {} lateName haccepts).1 hconforms
    overrun_lateName

/-- A method with an ill-formed descriptor whose code comes twice. -/
def secondCode : List Event := [.method { name := "m", descriptor := "bad" }, .code, .code]

/-- Both code events are passed on. -/
theorem forwarded_secondCode :
    Visitor.AcceptsAll Recorder.visit {} ((new {}).forwarded Recorder.visit {} secondCode) ∧
      (new {}).forwarded Recorder.visit {} secondCode = secondCode ∧
      ¬ Conforms ((new {}).forwarded Recorder.visit {} secondCode) := by
  decide +kernel

end Engine

end OperandStack
