import OperandStack.Proofs.Body

/-!
# Recorded slots are the latest writes

A store writes the value it takes to a slot, and an increment of a slot with a known value writes
the sum; a wide value takes the slot after as well. Labels let all that be forgotten, and
constructor calls settle references wherever they were written to.

An engine keeps a table of slots that it updates at the slot written and its two neighbours.
`Deed.Latest` gives a meaning to slots that knows nothing of the table, only of the deeds since
the last label. The two agree after every run of a body (`Engine.recorded_iff_latest_write`).
-/

namespace OperandStack

/-! ## What an instruction writes -/

namespace Instruction

def action? (ins : Instruction) : Option Action := ins.opcode.operation?.map (·.action)

theorem Performs.action? {ins : Instruction} {action : Action} (h : ins.Performs action) :
    ins.action? = some action := by
  obtain ⟨o, hop, -, rfl⟩ := h
  simp [Instruction.action?, hop]

/-- The slot of a load or store: the one its opcode implies, else its operand. -/
def slot? (ins : Instruction) (implied : Option Nat) : Option Int :=
  match implied, ins with
  | some n, _ => some n
  | none, .var _ slot => some slot
  | none, _ => none

/-- Loads a value of some kind from a slot that exists. -/
inductive Loads : Instruction → Text → Int → Prop
  | implied {ins : Instruction} {kind : Text} {n : Nat} :
      ins.Performs (.load kind (some n)) → Loads ins kind n
  | operand {op : Opcode} {kind : Text} {slot : Int} :
      (Instruction.var op slot).Performs (.load kind none) → 0 ≤ slot → slot ≤ maxSlot →
      Loads (.var op slot) kind slot

end Instruction

theorem Instruction.Loads.performs {ins : Instruction} {kind : Text} {slot : Int}
    (h : ins.Loads kind slot) :
    ∃ implied, ins.Performs (.load kind implied) ∧ slotOf ins implied = .ok slot := by
  cases h with
  | implied hperforms => exact ⟨_, hperforms, rfl⟩
  | operand hperforms hlow hhigh => exact ⟨_, hperforms, by simp [slotOf, hlow, hhigh]⟩

theorem slot?_of_slotOf {ins : Instruction} {implied : Option Nat} {slot : Int}
    (h : slotOf ins implied = .ok slot) : ins.slot? implied = some slot := by
  cases implied with
  | some n =>
      cases h
      rfl
  | none =>
      cases ins with
      | var op n =>
          simp only [slotOf] at h
          split at h
          · cases h
            rfl
          · cases h
      | _ => cases h

/-- What becomes of a value by an increment: an int constant moves on, with 32 bits, and of any
other value only the type is known. -/
def Value.plus (v : Value) (inc : Int) : Value :=
  match v.constant with
  | some (.int c) => .const FieldType.int (.int (Int32.ofInt (c.toInt + inc)))
  | _ => .typed FieldType.int

theorem Engine.incremented_eq_plus (v : Value) (inc : Int) : incremented v inc = v.plus inc := by
  rcases hconst : v.constant with _ | c
  · simp only [incremented, Value.plus, hconst]
  · cases c with
    | int c =>
        simp only [incremented, Value.plus, hconst]
        rw [Int32.ofInt_add, Int32.ofInt_toInt]
    | _ => simp only [incremented, Value.plus, hconst]

/-- The slot and the value that an instruction writes: a store what it takes from the stack, an
increment the sum, if it knows the value in its slot. -/
def Engine.write? (e : Engine) (ins : Instruction) : Option (Int × Value) :=
  match ins.action? with
  | some (.store implied) =>
      match ins.slot? implied, e.view with
      | some slot, v :: _ => some (slot, v)
      | _, _ => none
  | some .increment =>
      match ins with
      | .iinc slot inc => (e.recorded.get? slot).map fun v => (slot, v.plus inc)
      | _ => none
  | _ => none

/-- What is stored is what lay on top, or it awaits no constructor. -/
theorem Engine.write?_cases {e : Engine} {ins : Instruction} {slot : Int} {v : Value}
    (h : e.write? ins = some (slot, v)) :
    (∃ implied rest, ins.action? = some (.store implied) ∧ e.view = v :: rest) ∨
      ins.action? = some .increment ∧ v.site = 0 := by
  unfold write? at h
  split at h
  · next implied haction =>
    split at h
    · next hview =>
      cases h
      exact .inl ⟨implied, _, haction, hview⟩
    · cases h
  · next haction =>
    split at h
    · obtain ⟨w, -, hw⟩ := Option.map_eq_some_iff.1 h
      cases hw
      refine .inr ⟨haction, ?_⟩
      unfold Value.plus
      split <;> rfl
    · cases h
  · cases h

namespace Action

variable {e : Engine} {s : Operands} {ins : Instruction} {action : Action} {c : Change}

theorem run_store_record {implied : Option Nat} {u : Update} {args : Operands}
    (h : Action.run (.store implied) e ins args = .ok u) :
    ∃ slot v, args = [v] ∧ ins.slot? implied = some slot ∧ u.record = some (slot, v) := by
  simp only [Action.run] at h
  split at h
  · next slot hslot =>
    split at h
    · next v =>
      cases h
      exact ⟨slot, v, rfl, slot?_of_slotOf hslot, rfl⟩
    · cases h
  · cases h

theorem run_increment_record {u : Update} {args : Operands}
    (h : Action.run .increment e ins args = .ok u) :
    ∃ slot inc, ins = .iinc slot inc ∧
      u.record = (e.recorded.get? slot).map fun v => (slot, v.plus inc) := by
  cases ins with
  | iinc slot inc =>
      refine ⟨slot, inc, rfl, ?_⟩
      simp only [Action.run] at h
      split at h
      · cases h
      · split at h
        · cases h
        · split at h
          · next v hv =>
            cases h
            simp only [hv, Option.map_some, Engine.incremented_eq_plus]
          · next hnone =>
            cases h
            simp only [hnone, Option.map_none]
  | _ => cases h

theorem run_record_eq_none {u : Update} {args : Operands} (h : action.run e ins args = .ok u)
    (hstore : ∀ implied, action ≠ .store implied) (hinc : action ≠ .increment) :
    u.record = none := by
  cases action
  case store implied => exact absurd rfl (hstore implied)
  case increment => exact absurd rfl hinc
  all_goals
    simp only [Action.run] at h
    repeat' split at h
    all_goals cases h
    all_goals rfl

theorem write?_of_performs (h : ins.Performs action) (hstore : ∀ implied, action ≠ .store implied)
    (hinc : action ≠ .increment) : e.write? ins = none := by
  unfold Engine.write?
  rw [h.action?]
  split
  · next implied heq =>
    cases heq
    exact absurd rfl (hstore implied)
  · next heq =>
    cases heq
    exact absurd rfl hinc
  · rfl

theorem Applies.record_eq (happly : action.Applies e s ins c) (h : ins.Performs action)
    (hview : e.view = s) : c.update.record = e.write? ins := by
  cases happly with
  | fixed hfixed hcounts hle hrun =>
      by_cases hstore : ∃ implied, action = .store implied
      · obtain ⟨implied, rfl⟩ := hstore
        obtain rfl := h.pops_eq hfixed hcounts rfl
        obtain ⟨slot, v, hargs, hslot, hrecord⟩ := run_store_record hrun
        cases s with
        | nil => cases hargs
        | cons w s =>
            cases hargs
            simp only [Engine.write?, h.action?, hslot, hview, hrecord]
      · by_cases hinc : action = .increment
        · subst hinc
          obtain ⟨slot, inc, rfl, hrecord⟩ := run_increment_record hrun
          simp only [Engine.write?, h.action?, hrecord]
        · have hstore' : ∀ implied, action ≠ .store implied := fun implied heq =>
            hstore ⟨implied, heq⟩
          rw [run_record_eq_none hrun hstore' hinc, write?_of_performs h hstore' hinc]
  | _ => exact (write?_of_performs h (by simp) (by simp)).symm

end Action

/-! ## Histories -/

/-- What can change the recorded slots. -/
inductive Deed where
  | write (slot : Int) (v : Value)
  | construct (site : Int)
deriving DecidableEq, Repr

namespace Deed

/-- A write takes its slot, and the slot after if the value is wide. -/
def Occupies : Deed → Int → Prop
  | .write base v, slot => slot = base ∨ v.category = 2 ∧ slot = base + 1
  | .construct _, _ => False

/-- Of some deeds, the latest first, the last write that takes `slot` is one of `v` to `slot`
itself, no later one takes the second half of `v`, and `x` is what later constructor calls have
made of `v`. -/
def Latest (past : List Deed) (slot : Int) (x : Value) : Prop :=
  ∃ v later earlier, past = later ++ .write slot v :: earlier ∧
    (∀ d ∈ later, ¬ d.Occupies slot) ∧
    (v.category = 2 → ∀ d ∈ later, ¬ d.Occupies (slot + 1)) ∧
    x = if construct v.site ∈ later then v.initialized else v

variable {past : List Deed} {slot : Int} {x : Value}

theorem not_latest_nil : ¬ Latest [] slot x := by
  rintro ⟨v, later, earlier, heq, -⟩
  cases later <;> cases heq

theorem latest_write_iff {base : Int} {w : Value} :
    Latest (.write base w :: past) slot x ↔
      slot = base ∧ x = w ∨
      ¬ (write base w).Occupies slot ∧ Latest past slot x ∧
        (x.category = 2 → ¬ (write base w).Occupies (slot + 1)) := by
  constructor
  · rintro ⟨v, later, earlier, heq, hfree, hhalf, rfl⟩
    cases later with
    | nil =>
        cases heq
        exact .inl ⟨rfl, rfl⟩
    | cons d later =>
        cases heq
        rw [List.forall_mem_cons] at hfree
        refine .inr ⟨hfree.1, ⟨v, later, earlier, rfl, hfree.2, ?_, by simp⟩, ?_⟩
        · intro hwide
          exact (List.forall_mem_cons.1 (hhalf hwide)).2
        · intro hwide
          have hwide' : v.category = 2 := by
            split at hwide <;> exact hwide
          exact (List.forall_mem_cons.1 (hhalf hwide')).1
  · rintro (⟨rfl, rfl⟩ | ⟨hfree, ⟨v, later, earlier, rfl, hlater, hhalf, rfl⟩, hnext⟩)
    · exact ⟨x, [], past, rfl, by simp, by simp, rfl⟩
    · refine ⟨v, .write base w :: later, earlier, rfl, ?_, ?_, by simp⟩
      · exact List.forall_mem_cons.2 ⟨hfree, hlater⟩
      · intro hwide
        refine List.forall_mem_cons.2 ⟨hnext ?_, hhalf hwide⟩
        split <;> exact hwide

theorem settle_settled (site : Int) (later : List Deed) (v : Value) :
    (if construct v.site ∈ later then v.initialized else v).settle (some site) =
      if construct v.site ∈ construct site :: later then v.initialized else v := by
  by_cases hmem : construct v.site ∈ later
  · -- A reference that is settled already has no allocation left.
    simp only [hmem, List.mem_cons, or_true, if_true, Value.settle_some]
    split <;> rfl
  · simp [hmem, Value.settle_some]

theorem latest_construct_iff {site : Int} :
    Latest (.construct site :: past) slot x ↔
      ∃ y, Latest past slot y ∧ x = y.settle (some site) := by
  constructor
  · rintro ⟨v, later, earlier, heq, hfree, hhalf, rfl⟩
    cases later with
    | nil => cases heq
    | cons d later =>
        cases heq
        rw [List.forall_mem_cons] at hfree
        refine ⟨_, ⟨v, later, earlier, rfl, hfree.2, ?_, rfl⟩, (settle_settled site later v).symm⟩
        intro hwide
        exact (List.forall_mem_cons.1 (hhalf hwide)).2
  · rintro ⟨-, ⟨v, later, earlier, rfl, hfree, hhalf, rfl⟩, rfl⟩
    refine ⟨v, .construct site :: later, earlier, rfl, ?_, ?_, settle_settled site later v⟩
    · exact List.forall_mem_cons.2 ⟨id, hfree⟩
    · intro hwide
      exact List.forall_mem_cons.2 ⟨id, hhalf hwide⟩

/-- Wide values do not overlap what is in the slot after them. -/
theorem Latest.not_latest_succ {y : Value} (h : Latest past slot x) (hwide : x.category = 2) :
    ¬ Latest past (slot + 1) y := by
  intro hy
  induction past generalizing x y with
  | nil => exact not_latest_nil h
  | cons d past ih =>
      cases d with
      | write base w =>
          rw [latest_write_iff] at h hy
          rcases h with ⟨rfl, rfl⟩ | ⟨hfree, hpast, hhalf⟩
          · rcases hy with ⟨hbase, -⟩ | ⟨hfree, -⟩
            · omega
            · exact hfree (.inr ⟨hwide, rfl⟩)
          · rcases hy with ⟨rfl, -⟩ | ⟨-, hpast', -⟩
            · exact hhalf hwide (.inl rfl)
            · exact ih hpast hwide hpast'
      | construct site =>
          obtain ⟨x', hx', rfl⟩ := latest_construct_iff.1 h
          obtain ⟨y', hy', rfl⟩ := latest_construct_iff.1 hy
          rw [Value.category_settle] at hwide
          exact ih hx' hwide hy'

end Deed

/-! ## Histories and tables -/

namespace Recorded

/-- The table says of every slot what the deeds say. -/
def Reflects (r : Recorded) (past : List Deed) : Prop :=
  ∀ slot x, r.get? slot = some x ↔ Deed.Latest past slot x

theorem reflects_nil : Reflects [] [] := by
  intro slot x
  simp [Deed.not_latest_nil]

theorem get?_settle (r : Recorded) (site : Option Int) (slot : Int) :
    (r.settle site).get? slot = (r.get? slot).map (Value.settle site) := by
  induction r with
  | nil => rfl
  | cons p r ih =>
      have hcons : settle site (p :: r) = (p.1, p.2.settle site) :: settle site r := rfl
      rw [hcons, get?_cons, get?_cons, ih]
      split <;> rfl

variable {r : Recorded} {past : List Deed}

theorem Reflects.store (h : r.Reflects past) (base : Int) (v : Value) :
    (r.store base v).Reflects (.write base v :: past) := by
  intro slot x
  rw [get?_store_eq_some_iff, Deed.latest_write_iff, h]
  have hafter : slot + 1 = base ↔ slot = base - 1 := by omega
  simp only [Deed.Occupies, hafter]
  grind

theorem Reflects.settle (h : r.Reflects past) (site : Option Int) :
    (r.settle site).Reflects ((site.map Deed.construct).toList ++ past) := by
  cases site with
  | none => simpa using h
  | some site =>
      intro slot x
      rw [get?_settle, Option.map_eq_some_iff]
      simp only [Option.map_some, Option.toList_some, List.singleton_append]
      rw [Deed.latest_construct_iff]
      constructor
      · rintro ⟨y, hy, rfl⟩
        exact ⟨y, (h slot y).1 hy, rfl⟩
      · rintro ⟨y, hy, rfl⟩
        exact ⟨y, (h slot y).2 hy, rfl⟩

theorem Reflects.get?_succ_eq_none (h : r.Reflects past) {slot : Int} {x : Value}
    (hx : r.get? slot = some x) (hwide : x.category = 2) : r.get? (slot + 1) = none := by
  cases hy : r.get? (slot + 1) with
  | none => rfl
  | some y => exact absurd ((h _ _).1 hy) (((h _ _).1 hx).not_latest_succ hwide)

end Recorded

/-! ## Runs -/

namespace Engine

def deeds (e : Engine) (ins : Instruction) : List Deed :=
  ((e.write? ins).map fun w => Deed.write w.1 w.2).toList ++
    ((ins.constructs? e.view).map Deed.construct).toList

/-- The deeds to remember after an event. -/
def remembered (e : Engine) (past : List Deed) : Event → List Deed
  | .label _ => []
  | .instruction (some ins) => e.deeds ins ++ past
  | _ => past

/-- The deeds since the last label, the latest first, once some events have been accepted. -/
def history {σ : Type} (next : Option (Visitor σ)) :
    Engine × σ → List Deed → List Event → List Deed
  | _, past, [] => past
  | st, past, ev :: evs => history next (frontOf next st ev).1 (st.1.remembered past ev) evs

section
variable {e e' : Engine} {s : Operands} {ev : Event} {past : List Deed}

/-- What is recorded follows the deeds of one element of a body. -/
theorem Advance.reflects (h : e.Advance s ev e') (hready : e.Ready s)
    (htrack : e.config.trackLocals = true) (hreflects : e.recorded.Reflects past) :
    e'.recorded.Reflects (e.remembered past ev) := by
  cases h with
  | label => exact Recorded.reflects_nil
  | @instruction ins action c hperforms happly =>
      have hrecord := happly.record_eq hperforms hready.view
      have hsettles := happly.settles_eq hperforms
      rw [← hready.view] at hsettles
      have hsettled := hreflects.settle (ins.constructs? e.view)
      simp only [advanced_recorded, hrecord, hsettles, remembered, deeds, List.append_assoc]
      cases hwrite : e.write? ins with
      | none => exact hsettled
      | some w =>
          simp only [htrack, if_true]
          exact hsettled.store w.1 w.2

theorem Advance.config (h : e.Advance s ev e') : e'.config = e.config := by
  cases h <;> rfl

theorem Advance.locals (h : e.Advance s ev e') : e'.locals = e.locals := by
  cases h <;> rfl

theorem loaded_eq {layout : LocalLayout} (hlocals : e.locals = some layout) (slot : Int)
    (kind : Text) :
    e.loaded slot kind = (e.recorded.get? slot).getD
      (.typed (((layout.lookup slot).map (·.signature)).getD kind)) := by
  unfold loaded
  cases e.recorded.get? slot with
  | some v => rfl
  | none =>
      simp only [hlocals, Option.bind_some, Option.getD_none]
      cases layout.lookup slot <;> rfl

end

section
variable {σ : Type} {next : Option (Visitor σ)}

/-- By induction on the elements of the body, each of which is accepted and remembered. -/
theorem after_reflects {body : List Event} (hbody : ∀ ev ∈ body, ev.isElement) {e : Engine}
    {t : σ} {s : Operands} {past : List Deed} (hready : e.Ready s)
    (htrack : e.config.trackLocals = true) (hreflects : e.recorded.Reflects past)
    (hrun : (frontOf next).AcceptsAll (e, t) body) :
    ((frontOf next).after (e, t) body).1.recorded.Reflects (history next (e, t) past body) ∧
      ((frontOf next).after (e, t) body).1.locals = e.locals ∧
      ∃ s', ((frontOf next).after (e, t) body).1.Ready s' := by
  induction body generalizing e t s past with
  | nil => exact ⟨hreflects, rfl, s, hready⟩
  | cons ev body ih =>
      rw [List.forall_mem_cons] at hbody
      obtain ⟨haccepted, hrest⟩ := (Visitor.acceptsAll_cons _ _ _ _).1 hrun
      have hadvance := hready.advance hbody.1 (frontOf_accepted_iff.1 haccepted).1
      obtain ⟨s', hready'⟩ := hadvance.ready hready
      rw [Visitor.after_cons, history, frontOf_accepted haccepted]
      rw [frontOf_accepted haccepted] at hrest
      have htrack' := hadvance.config.symm ▸ htrack
      obtain ⟨hlast, hlocals, hready''⟩ :=
        ih hbody.2 hready' htrack' (hadvance.reflects hready htrack hreflects) hrest
      exact ⟨hlast, hlocals.trans hadvance.locals, hready''⟩

end

/-- With tracking, what is recorded in a body is what was written last since the last label. Wide
values do not share their second slot, and a load pushes what is recorded, else a value of the
declared parameter's type, else one of its own kind. -/
theorem recorded_iff_latest_write {σ : Type} (next : Option (Visitor σ)) (t : σ) (e : Engine)
    (body : List Event) (htrack : e.config.trackLocals = true)
    (hbody : ∀ ev ∈ body, ev.isElement)
    (hrun : (frontOf next).AcceptsAll (e, t) (.code :: body)) :
    let last := (frontOf next).after (e, t) (.code :: body)
    let past := history next (frontOf next (e, t) .code).1 [] body
    (∀ slot x, last.1.recorded.get? slot = some x ↔ Deed.Latest past slot x) ∧
    (∀ slot x, last.1.recorded.get? slot = some x → x.category = 2 →
      last.1.recorded.get? (slot + 1) = none) ∧
    ∃ d layout s, e.descriptor = some d ∧
      LocalLayout.ofMethod? e.method.access.isStatic d e.names = some layout ∧
      last.1.stack = some s ∧
      ∀ ins kind slot, ins.Loads kind slot → Passes next last.2 (.instruction (some ins)) →
        (frontOf next last (.instruction (some ins))).2.result = none ∧
        (frontOf next last (.instruction (some ins))).1.1.stack =
          some ((last.1.recorded.get? slot).getD
            (.typed (((layout.lookup slot).map (·.signature)).getD kind)) :: s) := by
  intro last past
  obtain ⟨haccepted, hrest⟩ := (Visitor.acceptsAll_cons _ _ _ _).1 hrun
  obtain ⟨d, layout, hdesc, hlayout, -, hready, hbegan⟩ :=
    visit_code_accepted (frontOf_accepted_iff.1 haccepted).1
  have hstart : (frontOf next (e, t) .code).1 = (e.began layout, passOn next t .code) := by
    rw [frontOf_accepted haccepted, hbegan]
  have hlast : last = (frontOf next).after (e.began layout, passOn next t .code) body := by
    simp only [last, Visitor.after_cons, hstart]
  have hpast : past = history next (e.began layout, passOn next t .code) [] body := by
    simp only [past, hstart]
  have hempty : (e.began layout).recorded.Reflects [] := Recorded.reflects_nil
  rw [hstart] at hrest
  obtain ⟨hreflects, hlocals, s, hready'⟩ := after_reflects hbody hready htrack hempty hrest
  rw [← hlast] at hreflects hlocals hready'
  rw [← hpast] at hreflects
  refine ⟨hreflects, fun slot x hx hwide => hreflects.get?_succ_eq_none hx hwide, d, layout, s,
    hdesc, hlayout, hready'.stack, ?_⟩
  intro ins kind slot hload hpasses
  obtain ⟨implied, hperforms, hslot⟩ := hload.performs
  obtain ⟨e', hadvance, hstack⟩ := exists_advance_of_load hperforms hslot last.1 s
  obtain ⟨hvisit, hengine⟩ := hadvance.visit hready'
  have haccepted' : (frontOf next (last.1, last.2) (.instruction (some ins))).2.result = none :=
    frontOf_accepted_iff.2 ⟨hvisit, hpasses⟩
  refine ⟨haccepted', ?_⟩
  rw [frontOf_accepted haccepted', hengine, hstack, loaded_eq hlocals]

def declaring : Engine :=
  ((new { trackLocals := true }).visit (.method { name := "m", descriptor := "(I)V" })).1

/-- A long is stored over the int in slot 3, and another int over its second half, which is then
incremented. A fresh reference is stored before its constructor is called. -/
def overlapping : List Event :=
  [.instruction (some (.plain ⟨0x04⟩)), .instruction (some (.plain ⟨0x3E⟩)),
    .instruction (some (.plain ⟨0x09⟩)), .instruction (some (.plain ⟨0x41⟩)),
    .instruction (some (.plain ⟨0x08⟩)), .instruction (some (.plain ⟨0x3E⟩)),
    .instruction (some (.iinc 3 2)),
    .instruction (some (.type .new "A")), .instruction (some (.plain ⟨0x59⟩)),
    .instruction (some (.var ⟨0x3A⟩ 4)),
    .instruction (some (.method .invokespecial "A" "<init>" "()V" false))]

/-- The increment is the latest write to slot 3. The long in slot 2 is gone with its second half,
and the reference is settled where it was stored. -/
theorem recorded_iff_latest_write_overlapping :
    (frontOf (none : Option (Visitor Unit))).AcceptsAll (declaring, ()) (.code :: overlapping) ∧
      Deed.Latest (history none (frontOf (none : Option (Visitor Unit)) (declaring, ()) .code).1 []
        overlapping) 3 (.const FieldType.int (.int 7)) ∧
      (¬ ∃ x, Deed.Latest (history none
        (frontOf (none : Option (Visitor Unit)) (declaring, ()) .code).1 [] overlapping) 2 x) ∧
      Deed.Latest (history none (frontOf (none : Option (Visitor Unit)) (declaring, ()) .code).1 []
        overlapping) 4 (.typed "LA;") := by
  have hrun : (frontOf (none : Option (Visitor Unit))).AcceptsAll (declaring, ())
      (.code :: overlapping) := by decide +kernel
  obtain ⟨hlatest, -, -⟩ := recorded_iff_latest_write none () declaring overlapping
    (by decide +kernel) (by decide) hrun
  refine ⟨hrun, (hlatest 3 _).1 (by decide +kernel), ?_, (hlatest 4 _).1 (by decide +kernel)⟩
  rintro ⟨x, hx⟩
  have hnone : ((frontOf (none : Option (Visitor Unit))).after (declaring, ())
      (.code :: overlapping)).1.recorded.get? 2 = none := by decide +kernel
  rw [(hlatest 2 x).2 hx] at hnone
  cases hnone

end Engine

end OperandStack
