import OperandStack.Proofs.Frame
import OperandStack.Proofs.Lineage
import OperandStack.Proofs.Transition

/-!
# Allocations

A `new` instruction leaves a reference that awaits its constructor, marked with the number of the
allocation. The call of a constructor settles all copies of its receiver at once.

Compared with the lineage of values, the marks are exact
(`Engine.fresh_references_stem_from_their_allocation`): the mark of a value is the number of the
allocation that it stems from, and a mark that was settled does not come back in the body.
-/

namespace OperandStack

def Event.isNew : Event → Bool
  | .instruction (some ins) => ins.opcode = .new
  | _ => false

namespace Engine

section
variable {σ : Type}

/-- The accepted `new` instructions among some events, the first of which has number `i`. -/
def news (next : Option (Visitor σ)) : Engine × σ → Nat → List Event → List Nat
  | _, _, [] => []
  | st, i, ev :: evs =>
      let (st', reply) := frontOf next st ev
      (if ev.isNew && reply.result.isNone then [i] else []) ++ news next st' (i + 1) evs

/-- The lineage after some events, the first of which has number `i`. -/
def lineage (next : Option (Visitor σ)) :
    Engine × σ → Lineage → Nat → List Event → Lineage
  | _, l, _, [] => l
  | st, l, i, ev :: evs =>
      let (st', reply) := frontOf next st ev
      lineage next st' (if reply.result.isNone then l.next st.1 i ev else l.left st'.1) (i + 1) evs

end

end Engine

/-! ## Numbers of allocations -/

theorem word64_eq_of_pos {n : Int} (hlow : 0 ≤ n) (hhigh : n ≤ 9223372036854775808)
    (hpos : 0 < word64 n) : word64 n = n ∧ n < 9223372036854775808 := by
  by_cases hlt : n < 9223372036854775808
  · exact ⟨word64_of_range (by omega) hlt, hlt⟩
  · obtain rfl : n = 9223372036854775808 := by omega
    revert hpos
    decide

theorem Operation.allocate_iff :
    ∀ p ∈ Operation.all.zipIdx, p.1.action = .allocate ↔ p.2 = Opcode.new.code.toNat := by
  decide +kernel

theorem Instruction.Performs.allocate_iff {ins : Instruction} {action : Action}
    (h : ins.Performs action) : action = .allocate ↔ ins.opcode = .new := by
  obtain ⟨o, hop, -, rfl⟩ := h
  rw [Operation.allocate_iff _ (List.mk_mem_zipIdx_iff_getElem?.2 hop), UInt8.toNat_inj]
  cases ins.opcode
  simp [Opcode.new]

/-- Allocations are numbered one after the other, as long as there are numbers. -/
theorem Action.Applies.site_cases {e : Engine} {s : Operands} {ins : Instruction} {action : Action}
    {c : Change} (happly : action.Applies e s ins c) (hperforms : ins.Performs action) :
    ins.opcode = .new ∧ 0 < word64 (e.sites + 1) ∧
        c.update.site = some (word64 (e.sites + 1)) ∨
      ins.opcode ≠ .new ∧ c.update.site = none := by
  rw [ne_eq, ← hperforms.allocate_iff]
  cases happly with
  | fixed _ _ _ hrun =>
      by_cases hallocate : action = .allocate
      · subst hallocate
        obtain ⟨hpos, hsite, -⟩ := run_allocate hrun
        exact .inl ⟨rfl, hpos, hsite⟩
      · exact .inr ⟨hallocate, run_site_of_ne_allocate hrun hallocate⟩
  | _ => exact .inr ⟨by simp, rfl⟩

namespace Engine

/-- The mark of a value that awaits its constructor is the number of the allocation, among the
events `past`, that the value stems from, and it is not `gone`. -/
def Stems (past : List Nat) (gone : Option Int) (site : Int) (origin : Option Nat) : Prop :=
  site ≠ 0 → gone ≠ some site ∧ 0 < site ∧ ∃ i, origin = some i ∧ past[site.toNat - 1]? = some i

/-- An engine in a body whose allocations were the events `past`, so that the marks of its values
are accounted for. The mark `gone` has been given and occurs no more. -/
structure Accounts (past : List Nat) (gone : Option Int) (l : Lineage) (e : Engine) : Prop where
  phase : e.phase = .inCode
  agrees : l.Agrees e (Stems past gone)
  sites : e.sites = past.length
  bounded : (past.length : Int) < 9223372036854775808
  gone_le : ∀ site, gone = some site → site ≤ past.length

section
variable {past : List Nat} {gone gone' : Option Int} {l : Lineage} {e e' : Engine} {s : Operands}
  {ev : Event} {i : Nat}

theorem stems_zero (past : List Nat) (gone : Option Int) (origin : Option Nat) :
    Stems past gone 0 origin := fun h => absurd rfl h

theorem Stems.append {site : Int} {origin : Option Nat} (h : Stems past gone site origin)
    (hgone : gone' = some site → gone = some site) (more : List Nat) :
    Stems (past ++ more) gone' site origin := by
  intro hsite
  obtain ⟨hkept, hpos, j, horigin, hj⟩ := h hsite
  refine ⟨fun heq => hkept (hgone heq), hpos, j, horigin, ?_⟩
  rw [List.getElem?_append_left (List.getElem?_eq_some_iff.1 hj).1]
  exact hj

theorem stems_snoc {site : Int} (hsite : site = past.length + 1)
    (hgone : ∀ site, gone = some site → site ≤ past.length) (i : Nat) :
    Stems (past ++ [i]) gone site (some i) := by
  intro _
  have hindex : site.toNat - 1 = past.length := by omega
  refine ⟨?_, by omega, i, rfl, ?_⟩
  · intro heq
    have hle := hgone site heq
    omega
  · rw [hindex]
    simp

theorem Accounts.running (h : Accounts past gone l e) : e.Running := by
  obtain ⟨s, hs, -⟩ := h.agrees.stack
  exact ⟨h.phase, s, hs⟩

/-- An accepted element. The mark that it settles is gone afterwards. -/
theorem Accounts.advance (h : Accounts past gone l e) (hready : e.Ready s)
    (hadvance : e.Advance s ev e')
    (hgone : ∀ site, gone' = some site → gone = some site ∨ e.constructs? ev = some site)
    (hgone_le : ∀ site, gone' = some site → site ≤ past.length) :
    Accounts (past ++ if ev.isNew then [i] else []) gone' (l.next e i ev) e' := by
  cases hadvance with
  | label =>
      have hkeep : ∀ site origin, Stems past gone site origin →
          Stems (past ++ []) gone' site origin := by
        intro site origin hstems
        refine hstems.append (fun heq => ?_) []
        exact (hgone site heq).resolve_right (by simp [constructs?])
      simp only [Event.isNew, Bool.false_eq_true, if_false]
      exact ⟨h.phase, h.agrees.label hkeep _, by simp [h.sites], by simp [h.bounded],
        by simpa using hgone_le⟩
  | @instruction ins action c hperforms happly =>
      have hconstructs : e.constructs? (.instruction (some ins)) = c.settles := by
        rw [constructs?, happly.settles_eq hperforms, hready.view]
      have hkeep (more : List Nat) : ∀ site origin, c.settles ≠ some site →
          Stems past gone site origin → Stems (past ++ more) gone' site origin := by
        intro site origin hne hstems
        refine hstems.append (fun heq => ?_) more
        exact (hgone site heq).resolve_right (hconstructs ▸ hne)
      have hsites : (e.advanced s c).sites = c.update.site.getD e.sites := rfl
      have hbounded := h.bounded
      rcases happly.site_cases hperforms with ⟨hnew, hpos, hsite⟩ | ⟨hnew, hsite⟩
      · have hlow := h.sites
        obtain ⟨hnumber, hlt⟩ := word64_eq_of_pos (by omega) (by omega) hpos
        have hmany : ((past ++ [i]).length : Int) = past.length + 1 := by simp
        simp only [Event.isNew, hnew, decide_true, if_true]
        refine ⟨h.phase, ?_, ?_, ?_, ?_⟩
        · refine h.agrees.instruction hready hperforms happly (stems_zero _ _) (hkeep [i]) ?_
          intro site heq
          rw [hsite, Option.some.injEq] at heq
          exact stems_snoc (by omega) hgone_le i
        · rw [hsites, hsite, Option.getD_some]
          omega
        · omega
        · intro site heq
          have hle := hgone_le site heq
          omega
      · simp only [Event.isNew, hnew, decide_false, Bool.false_eq_true, if_false]
        refine ⟨h.phase, ?_, ?_, by simpa using hbounded, by simpa using hgone_le⟩
        · refine h.agrees.instruction hready hperforms happly (stems_zero _ _) (hkeep []) ?_
          simp [hsite]
        · rw [hsites, hsite, Option.getD_none, h.sites, List.append_nil]

theorem Accounts.left (h : Accounts past gone l e) (hremains : e.Remains e')
    (hphase : e'.phase = .inCode) : Accounts past gone (l.left e') e' := by
  obtain ⟨s, hs, hstack⟩ := h.agrees.stack
  obtain ⟨n, hn⟩ := hremains.stack
  rw [hs, Option.map_some] at hn
  have hdrop : s.drop (l.stack.length - e'.view.length) = s.drop n := by
    rw [view_of_stack hphase hn, ← hstack.length_eq, List.length_drop]
    rcases Nat.le_total n s.length with hle | hle
    · rw [Nat.sub_sub_self hle]
    · rw [List.drop_eq_nil_of_le hle, List.drop_eq_nil_of_le (by omega)]
  refine ⟨hphase, ⟨⟨s.drop n, hn, ?_⟩, ?_⟩, ?_, h.bounded, h.gone_le⟩
  · rw [← hdrop]
    exact List.forall₂_drop _ hstack
  · rw [hremains.recorded]
    exact h.agrees.slots
  · rw [hremains.sites, h.sites]

variable {σ : Type} {next : Option (Visitor σ)} {t : σ}

theorem Accounts.frontOf (h : Accounts past gone l e)
    (hphase : (frontOf next (e, t) ev).1.1.phase = .inCode) (i : Nat) :
    Accounts (past ++ if ev.isNew && (frontOf next (e, t) ev).2.result.isNone then [i] else []) gone
      (if (frontOf next (e, t) ev).2.result.isNone then l.next e i ev
        else l.left (frontOf next (e, t) ev).1.1)
      (frontOf next (e, t) ev).1.1 := by
  rcases h.running.frontOf_cases hphase with
    ⟨haccepted, s, hready, hadvance⟩ | ⟨hrefused, hremains⟩
  · simp only [haccepted, Option.isNone_none, Bool.and_true, if_true]
    exact h.advance hready hadvance (fun site heq => .inl heq) h.gone_le
  · obtain ⟨stop, hstop⟩ := Option.ne_none_iff_exists'.1 hrefused
    simp only [hstop, Option.isNone_some, Bool.and_false, Bool.false_eq_true, if_false,
      List.append_nil]
    exact h.left hremains hphase

/-- Whole runs inside a body, by induction on the events. -/
theorem after_accounts {evs : List Event} (hevs : StaysInCode next (e, t) evs)
    (h : Accounts past gone l e) (i : Nat) :
    Accounts (past ++ news next (e, t) i evs) gone (lineage next (e, t) l i evs)
      ((Engine.frontOf next).after (e, t) evs).1 := by
  induction evs generalizing e t past l i with
  | nil => simpa [news, lineage] using h
  | cons ev evs ih =>
      obtain ⟨hphase, hrest⟩ := hevs
      have hnext := ih hrest (h.frontOf hphase i) (i + 1)
      rw [List.append_assoc] at hnext
      exact hnext

end

/-! ## Bodies of methods -/

section
variable {e : Engine}

theorem receiveMethod_sites (e : Engine) (m : MethodInfo) : (e.receiveMethod m).1.sites = 0 := by
  unfold receiveMethod declare
  split <;> rfl

theorem visit_sites (h : e.phase = .inMethod → e.sites = 0) (ev : Event)
    (hphase : (e.visit ev).1.phase = .inMethod) : (e.visit ev).1.sites = 0 := by
  rcases (e.visit_transition ev).inMethod hphase with ⟨m, rfl⟩ | ⟨hbefore, names, sticky, hengine⟩
  · exact receiveMethod_sites e m
  · rw [hengine]
    exact h hbefore

theorem after_sites {σ : Type} {next : Option (Visitor σ)} {t : σ} (evs : List Event)
    (h : e.phase = .inMethod → e.sites = 0) :
    ((frontOf next).after (e, t) evs).1.phase = .inMethod →
      ((frontOf next).after (e, t) evs).1.sites = 0 := by
  have hstep : ∀ ev ∈ evs, ∀ e : Engine, (e.phase = .inMethod → e.sites = 0) →
      (e.visit ev).1.phase = .inMethod → (e.visit ev).1.sites = 0 :=
    fun ev _ e h => visit_sites h ev
  exact after_of_visit hstep h

theorem accounts_of_code {σ : Type} {next : Option (Visitor σ)} {st : Engine × σ}
    (hsites : st.1.phase = .inMethod → st.1.sites = 0)
    (hcode : (frontOf next st .code).2.result = none) :
    Accounts [] none {} (frontOf next st .code).1.1 := by
  obtain ⟨e, t⟩ := st
  obtain ⟨d, layout, -, -, hphase, hready, hbegan⟩ :=
    visit_code_accepted (frontOf_accepted_iff.1 hcode).1
  rw [frontOf_accepted hcode, hbegan]
  exact
    { phase := hready.phase
      agrees := ⟨⟨[], hready.stack, .nil⟩, by simp [began]⟩
      sites := hsites hphase
      bounded := by decide
      gone_le := by simp }

end

/-! ## Constructor calls -/

def constructorCall (owner desc : Text) (interface : Bool) : Event :=
  .instruction (some (.method .invokespecial owner constructorName desc interface))

section
variable {past : List Nat} {l : Lineage} {e : Engine} {owner desc : Text} {interface : Bool}
  {m : MethodDescriptor} {receiver : Value}

theorem constructs?_constructorCall (hparse : MethodDescriptor.parse desc = .ok m)
    (hreceiver : e.view[m.params.length]? = some receiver) (hfresh : receiver.isUninitialized) :
    e.constructs? (constructorCall owner desc interface) = some receiver.site := by
  simp [constructs?, constructorCall, Instruction.constructs?, hparse, hreceiver, Action.settled?,
    hfresh]

/-- A constructor call takes its arguments and the receiver, and settles what is left. -/
theorem Advance.of_constructorCall {e' : Engine} {s : Operands} (hready : e.Ready s)
    (h : e.Advance s (constructorCall owner desc interface) e')
    (hparse : MethodDescriptor.parse desc = .ok m)
    (hreceiver : e.view[m.params.length]? = some receiver) (hfresh : receiver.isUninitialized) :
    e'.stack = some (Action.callResult m ++
        Operands.settle (some receiver.site) (s.drop (m.params.length + 1))) ∧
      e'.recorded = e.recorded.settle (some receiver.site) := by
  have hconstructs : e.constructs? (constructorCall owner desc interface) = some receiver.site :=
    constructs?_constructorCall hparse hreceiver hfresh
  unfold constructorCall at h hconstructs
  cases h with
  | @instruction _ action c hperforms happly =>
      have hsettles := happly.settles_eq hperforms
      rw [← hready.view, ← constructs?, hconstructs] at hsettles
      obtain rfl := hperforms.eq_invoke rfl
      rw [advanced_stack, advanced_recorded, hsettles]
      cases happly with
      | fixed hfixed => cases hfixed
      | invoke hparse' _ =>
          rw [hparse] at hparse'
          cases hparse'
          exact ⟨rfl, rfl⟩

/-- After the constructor has run, no value has the receiver's mark. -/
theorem Accounts.construct {e' : Engine} {s : Operands} (h : Accounts past none l e)
    (hready : e.Ready s) (hadvance : e.Advance s (constructorCall owner desc interface) e')
    (hparse : MethodDescriptor.parse desc = .ok m)
    (hreceiver : e.view[m.params.length]? = some receiver) (hfresh : receiver.isUninitialized) :
    ∃ l', Accounts past (some receiver.site) l' e' := by
  have hconstructs : e.constructs? (constructorCall owner desc interface) = some receiver.site :=
    constructs?_constructorCall hparse hreceiver hfresh
  have hstems := h.agrees.marked_at h.phase (p := .entry m.params.length) hreceiver
  obtain ⟨-, hpos, j, -, hj⟩ := hstems (by simpa [Value.isUninitialized] using hfresh)
  have hle : receiver.site ≤ past.length := by
    have hlt := (List.getElem?_eq_some_iff.1 hj).1
    omega
  have hold : (constructorCall owner desc interface).isNew = false := rfl
  refine ⟨l.next e 0 (constructorCall owner desc interface), ?_⟩
  have haccounts : Accounts (past ++ if _ then [0] else []) (some receiver.site) _ e' :=
    h.advance hready hadvance (fun site heq => .inr (hconstructs.trans heq))
      (fun site heq => Option.some.inj heq ▸ hle)
  rwa [hold, if_neg Bool.false_ne_true, List.append_nil] at haccounts

end

/-- In every state of a method body, a reference that awaits its constructor is marked with the
number of the allocation it stems from. An accepted constructor call on such a reference settles
all values of its mark, leaves the others as they were, and the mark does not come back in the
rest of the body. -/
theorem fresh_references_stem_from_their_allocation {σ : Type} (next : Option (Visitor σ)) (t : σ)
    (config : Config) (before body : List Event)
    (hcode : (frontOf next ((frontOf next).after (new config, t) before) .code).2.result = none)
    (hbody : StaysInCode next
      (frontOf next ((frontOf next).after (new config, t) before) .code).1 body) :
    let start := (frontOf next ((frontOf next).after (new config, t) before) .code).1
    let now := (frontOf next).after start body
    let allocations := news next start 0 body
    (∀ p v, now.1.at? p = some v → v.isUninitialized →
      1 ≤ v.site ∧ v.site ≤ allocations.length ∧
        (lineage next start {} 0 body).at? p = allocations[v.site.toNat - 1]?) ∧
    ∀ owner desc interface m receiver, MethodDescriptor.parse desc = .ok m →
      now.1.view[m.params.length]? = some receiver → receiver.isUninitialized →
      (frontOf next now (constructorCall owner desc interface)).2.result = none →
      let settled := fun v : Value => if v.site = receiver.site then v.initialized else v
      let constructed := (frontOf next now (constructorCall owner desc interface)).1
      constructed.1.view =
          Action.callResult m ++ (now.1.view.drop (m.params.length + 1)).map settled ∧
        (∀ n, constructed.1.recorded.get? n = (now.1.recorded.get? n).map settled) ∧
        ∀ rest, StaysInCode next constructed rest →
          ∀ p v, ((frontOf next).after constructed rest).1.at? p = some v →
            v.site ≠ receiver.site := by
  intro start now allocations
  have hstart : Accounts [] none {} start.1 :=
    accounts_of_code (after_sites before fun _ => rfl) hcode
  have hnow : Accounts allocations none (lineage next start {} 0 body) now.1 :=
    after_accounts hbody hstart 0
  refine ⟨?_, ?_⟩
  · intro p v hv hfresh
    have hsite : v.site ≠ 0 := by simpa [Value.isUninitialized] using hfresh
    obtain ⟨-, hpos, i, horigin, hi⟩ := hnow.agrees.marked_at hnow.phase hv hsite
    have hlt := (List.getElem?_eq_some_iff.1 hi).1
    exact ⟨hpos, by omega, horigin.trans hi.symm⟩
  · intro owner desc interface m receiver hparse hreceiver hfresh haccepted settled constructed
    obtain ⟨s, hready, hadvance⟩ : ∃ s, now.1.Ready s ∧
        now.1.Advance s (constructorCall owner desc interface) constructed.1 :=
      hnow.running.advance_of_accepted rfl haccepted
    obtain ⟨hstack, hrecorded⟩ := hadvance.of_constructorCall hready hparse hreceiver hfresh
    obtain ⟨l, hconstructed⟩ := hnow.construct hready hadvance hparse hreceiver hfresh
    have hsettled : Value.settle (some receiver.site) = settled :=
      funext (Value.settle_some receiver.site)
    refine ⟨?_, ?_, ?_⟩
    · rw [view_of_stack hconstructed.phase hstack, hready.view, ← hsettled, Operands.settle]
    · intro n
      rw [hrecorded, Recorded.get?_settle, hsettled]
    · intro rest hrest p v hv heq
      have hlater := after_accounts hrest hconstructed 0
      have hsite : v.site ≠ 0 := by simpa [Value.isUninitialized, heq] using hfresh
      exact (hlater.agrees.marked_at hlater.phase hv hsite).1 (by rw [heq])

/-- Allocates, copies to slot 4, allocates again, and copies the first reference over the second. -/
def allocateTwice : List Event :=
  [.instruction (some (.type .new "A")), .instruction (some (.plain ⟨0x59⟩)),
    .instruction (some (.var ⟨0x3A⟩ 4)), .instruction (some (.type .new "A")),
    .instruction (some (.plain ⟨0x5F⟩)), .instruction (some (.plain ⟨0x59⟩))]

def reloadAndAllocate : List Event :=
  [.instruction (some (.var ⟨0x19⟩ 4)), .instruction (some (.type .new "A"))]

/-- The second reference lies under two copies of the first, and a third copy is in slot 4. The
constructor call settles the copies of the first, for good. -/
theorem fresh_references_stem_from_their_allocation_copies :
    let visit := frontOf (none : Option (Visitor Unit))
    let start := (visit (visit.after (new { trackLocals := true }, ())
      [.method { name := "m", descriptor := "()V" }]) .code).1
    let now := visit.after start allocateTwice
    let constructed := (visit now (constructorCall "A" "()V" false)).1
    StaysInCode none start allocateTwice ∧ news none start 0 allocateTwice = [0, 3] ∧
      now.1.view.map (·.site) = [1, 1, 2] ∧
      (lineage none start {} 0 allocateTwice).at? (.entry 2) = some 3 ∧
      (lineage none start {} 0 allocateTwice).at? (.slot 4) = some 0 ∧
      constructed.1.view.map (·.site) = [0, 2] ∧
      StaysInCode none constructed reloadAndAllocate ∧
      ∀ p v, (visit.after constructed reloadAndAllocate).1.at? p = some v → v.site ≠ 1 := by
  intro visit start now constructed
  have hbody : StaysInCode none start allocateTwice := by decide +kernel
  have hrest : StaysInCode none constructed reloadAndAllocate := by decide +kernel
  have hnews : news none start 0 allocateTwice = [0, 3] := by decide +kernel
  obtain ⟨hmarks, hcalls⟩ := fresh_references_stem_from_their_allocation none ()
    { trackLocals := true } [.method { name := "m", descriptor := "()V" }] allocateTwice
    (by decide +kernel) hbody
  have hunder := (hmarks (.entry 2) ⟨"LA;", none, none, false, 2⟩ (by decide +kernel) rfl).2.2
  have hstored := (hmarks (.slot 4) ⟨"LA;", none, none, false, 1⟩ (by decide +kernel) rfl).2.2
  obtain ⟨-, -, hgone⟩ := hcalls "A" "()V" false ⟨[], "V"⟩ ⟨"LA;", none, none, false, 1⟩
    (by decide +kernel) (by decide +kernel) rfl (by decide +kernel)
  exact ⟨hbody, hnews, by decide +kernel, hunder.trans (by decide +kernel),
    hstored.trans (by decide +kernel), by decide +kernel, hrest, hgone reloadAndAllocate hrest⟩

end Engine

end OperandStack
