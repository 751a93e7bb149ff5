import Mathlib.Algebra.Ring.Int.Defs
import OperandStack.Proofs.Holding

/-!
# What is known of held values

Apart from its type, a value may be known to be a constant, to have been read from a field, to be
a return address or to await its constructor. Constants and fields are compared here with the
instructions that were applied since the body began. A constant is one that an instruction
pushed. Only where local variables are tracked can it be another one, which is then a number that
was pushed and increments that came after it, added up as 32-bit words.
-/

namespace OperandStack

def Instruction.increment? : Instruction → Option Int
  | .iinc _ inc => some inc
  | _ => none

/-- The number is one that an instruction pushed, and increments after it. -/
def Counted (past : List Instruction) (k : Int32) : Prop :=
  ∃ before ins after base incs, past = before ++ ins :: after ∧
    ins.constant? = some (.int base) ∧
    List.Sublist incs (after.filterMap Instruction.increment?) ∧
    k = Int32.ofInt (base.toInt + incs.sum)

/-- What is known of a value beyond its type is of one kind, and instructions among `past` are
the reason for it. -/
structure Grounded (tracking : Bool) (past : List Instruction) (v : Value) : Prop where
  exclusive :
    [v.constant.isSome, v.field.isSome, v.returnAddress, v.isUninitialized].count true ≤ 1
  field : ∀ f, v.field = some f → ∃ op, (op = .getstatic ∨ op = .getfield) ∧
    .field op f.owner f.name f.descriptor ∈ past
  constant : ∀ c, v.constant = some c → (∃ ins ∈ past, ins.constant? = some c) ∨
    tracking = true ∧ ∃ k, c = .int k ∧ Counted past k

section
variable {tracking : Bool} {past : List Instruction} {ins : Instruction} {v : Value}

theorem counted_of_mem {k : Int32} (hins : ins ∈ past) (hconst : ins.constant? = some (.int k)) :
    Counted past k := by
  obtain ⟨before, after, rfl⟩ := List.append_of_mem hins
  refine ⟨before, ins, after, k, [], rfl, hconst, List.nil_sublist _, ?_⟩
  simp

theorem Counted.snoc {k : Int32} (h : Counted past k) (ins : Instruction) :
    Counted (past ++ [ins]) k := by
  obtain ⟨before, source, after, base, incs, rfl, hconst, hincs, rfl⟩ := h
  refine ⟨before, source, after ++ [ins], base, incs, by simp, hconst, ?_, rfl⟩
  rw [List.filterMap_append]
  exact hincs.trans (List.sublist_append_left _ _)

theorem Counted.increment {k : Int32} (h : Counted past k) (slot inc : Int) :
    Counted (past ++ [.iinc slot inc]) (k + Int32.ofInt inc) := by
  obtain ⟨before, source, after, base, incs, rfl, hconst, hincs, rfl⟩ := h
  refine ⟨before, source, after ++ [.iinc slot inc], base, incs ++ [inc], by simp, hconst, ?_, ?_⟩
  · rw [List.filterMap_append]
    exact hincs.append (List.Sublist.refl [inc])
  · rw [List.sum_append, List.sum_singleton, ← Int.add_assoc, ← Int32.ofInt_add]

theorem Grounded.snoc (h : Grounded tracking past v) (ins : Instruction) :
    Grounded tracking (past ++ [ins]) v := by
  refine ⟨h.exclusive, ?_, ?_⟩
  · intro f hf
    obtain ⟨op, hop, hmem⟩ := h.field f hf
    exact ⟨op, hop, List.mem_append_left _ hmem⟩
  · intro c hc
    rcases h.constant c hc with ⟨source, hmem, hconst⟩ | ⟨htracking, k, rfl, hcounted⟩
    · exact .inl ⟨source, List.mem_append_left _ hmem, hconst⟩
    · exact .inr ⟨htracking, k, rfl, hcounted.snoc ins⟩

theorem Grounded.settle (h : Grounded tracking past v) (site : Option Int) :
    Grounded tracking past (v.settle site) := by
  refine ⟨?_, fun f hf => h.field f (by simpa using hf),
    fun c hc => h.constant c (by simpa using hc)⟩
  have hexclusive := h.exclusive
  have hfresh : (v.settle site).isUninitialized → v.isUninitialized :=
    Value.isUninitialized_of_settle
  simp only [Value.constant_settle, Value.field_settle, Value.returnAddress_settle]
  generalize (v.settle site).isUninitialized = settled at hfresh
  generalize v.isUninitialized = fresh at hfresh hexclusive
  cases settled with
  | false => exact Nat.le_trans (by cases fresh <;> simp [List.count_cons]) hexclusive
  | true => rwa [hfresh rfl] at hexclusive

theorem grounded_typed (sig : Text) : Grounded tracking past (.typed sig) :=
  ⟨by simp [Value.typed, Value.isUninitialized], nofun, nofun⟩

end

namespace Engine

section
variable {tracking : Bool} {past : List Instruction} {e : Engine} {ins : Instruction} {v : Value}

/-- An instruction is the reason for what it brings in. -/
theorem Yields.grounded (h : e.Yields ins v) (hheld : ∀ w, e.Holds w → Grounded tracking past w)
    (hslots : tracking = false → e.recorded = []) : Grounded tracking (past ++ [ins]) v := by
  cases h with
  | kept hw => exact ((hheld _ hw).settle _).snoc ins
  | @cast name w hw _ =>
      have hw := (hheld w hw).snoc (.type .checkcast name)
      exact ⟨hw.exclusive, hw.field, hw.constant⟩
  | typed => exact grounded_typed _
  | constant hc =>
      refine ⟨by simp [Value.const, Value.isUninitialized], by rintro _ ⟨⟩, ?_⟩
      intro c' hc'
      cases hc'
      exact .inl ⟨ins, by simp, hc⟩
  | @sum slot inc w k hw hk =>
      have htracking : tracking = true := by
        by_contra hne
        rw [hslots (by simpa using hne), Recorded.get?_nil] at hw
        cases hw
      have hcounted : Counted past k := by
        rcases (hheld w (.slot hw)).constant _ hk with ⟨source, hmem, hconst⟩ | ⟨-, k', heq, hk'⟩
        · exact counted_of_mem hmem hconst
        · cases heq
          exact hk'
      refine ⟨by simp [Value.const, Value.isUninitialized], by rintro _ ⟨⟩, ?_⟩
      intro c hc
      cases hc
      exact .inr ⟨htracking, _, rfl, hcounted.increment slot inc⟩
  | @field op owner name desc hop _ =>
      refine ⟨by simp [Value.ofField, Value.isUninitialized], ?_, by rintro _ ⟨⟩⟩
      intro f hf
      cases hf
      exact ⟨op, hop, by simp⟩
  | address =>
      exact ⟨by simp [Value.address, Value.isUninitialized], by rintro _ ⟨⟩, by rintro _ ⟨⟩⟩
  | fresh => exact ⟨by simp [List.count_cons]; split <;> simp, by rintro _ ⟨⟩, by rintro _ ⟨⟩⟩

end

/-- An engine that does not track local variables records nothing. -/
theorem Transition.recorded {e e' : Engine} {ev : Event} {result : Option Stop}
    (h : e.Transition ev e' result) (htracking : e.config.trackLocals = false)
    (hrecorded : e.recorded = []) : e'.recorded = [] := by
  cases h with
  | declared => rfl
  | misdeclared => rfl
  | code => rfl
  | label => rfl
  | applied =>
      rw [advanced_recorded, hrecorded, htracking]
      split <;> rfl
  | _ => exact hrecorded

/-! ## Histories -/

/-- The instructions applied since the body began, given those before an accepted event. -/
def pastAfter (past : List Instruction) : Event → List Instruction
  | .code => []
  | .instruction (some ins) => past ++ [ins]
  | _ => past

section
variable {σ : Type}

def applications (next : Option (Visitor σ)) :
    Engine × σ → List Instruction → List Event → List Instruction
  | _, past, [] => past
  | st, past, ev :: evs =>
      let (st', reply) := frontOf next st ev
      applications next st' (if reply.result.isNone then pastAfter past ev else past) evs

end

/-- All that an engine knows of its values is grounded. -/
structure Informed (config : Config) (past : List Instruction) (e : Engine) : Prop where
  configured : e.config = config
  held : ∀ v, e.Holds v → Grounded config.trackLocals past v
  slots : config.trackLocals = false → e.recorded = []
  /-- A body begins with nothing, whatever the body before it has left. -/
  fresh : e.phase = .inMethod → ∀ v, ¬ e.Holds v

section
variable {config : Config} {past : List Instruction} {e : Engine} {ev : Event}

theorem informed_new (config : Config) : Informed config [] (new config) where
  configured := rfl
  held v hv := absurd hv (not_holds_new config v)
  slots _ := rfl
  fresh _ v := not_holds_new config v

theorem Informed.kept (h : Informed config past e) {v : Value} (hv : e.Holds v)
    (haccepted : (e.visit ev).2.result = none) :
    Grounded config.trackLocals (pastAfter past ev) v := by
  cases ev with
  | code =>
      obtain ⟨_, _, _, _, hphase, _⟩ := visit_code_accepted haccepted
      exact absurd hv (h.fresh hphase v)
  | instruction ins =>
      cases ins with
      | none => exact h.held v hv
      | some ins => exact (h.held v hv).snoc ins
  | _ => exact h.held v hv

theorem Informed.visit (h : Informed config past e) (ev : Event) :
    Informed config (if (e.visit ev).2.result.isNone then pastAfter past ev else past)
      (e.visit ev).1 where
  configured := (e.visit_transition ev).config.trans h.configured
  held v hv := by
    by_cases haccepted : (e.visit ev).2.result = none
    · rw [if_pos (by simp [haccepted])]
      rcases (e.visit_transition ev).holds hv with hold | ⟨ins, rfl, -, hyields⟩
      · exact h.kept hold haccepted
      · exact hyields.grounded h.held h.slots
    · rw [if_neg (by simpa using haccepted)]
      rcases (e.visit_transition ev).holds hv with hold | ⟨ins, rfl, hresult, -⟩
      · exact h.held v hold
      · exact absurd hresult haccepted
  slots htracking := by
    have hrecorded := h.slots htracking
    rw [← h.configured] at htracking
    exact (e.visit_transition ev).recorded htracking hrecorded
  fresh hphase v hv := by
    rcases (e.visit_transition ev).inMethod hphase with ⟨m, rfl⟩ | ⟨hbefore, _, _, hengine⟩
    · exact not_holds_receiveMethod e m v hv
    · rw [hengine] at hv
      exact h.fresh hbefore v (hv.of_less (.inr (.inr rfl)) (.inr rfl) rfl)

/-- Whole runs, by induction on the events. -/
theorem after_informed {σ : Type} {next : Option (Visitor σ)} {t : σ} {evs : List Event}
    (h : Informed config past e) :
    Informed config (applications next (e, t) past evs) ((frontOf next).after (e, t) evs).1 := by
  induction evs generalizing e t past with
  | nil => exact h
  | cons ev evs ih =>
      have hnext : Informed config
          (if (frontOf next (e, t) ev).2.result.isNone then pastAfter past ev else past)
          (frontOf next (e, t) ev).1.1 := by
        rcases frontOf_cases next e t ev with ⟨hengine, hresult⟩ | ⟨hengine, hresult⟩
        · rw [hengine, hresult]
          exact h.visit ev
        · rw [hengine, if_neg (by simpa using hresult)]
          exact h
      exact ih hnext

end

/-! ## Main results -/

/-- Values know nothing that no instruction of the body told: in every state that an engine gets
to, what it knows of a value is of one kind at most, a field is one that an applied instruction
read, and a constant is one that an applied instruction pushed, or, where local variables are
tracked, such a number and applied increments. -/
theorem held_values_are_grounded {σ : Type} (next : Option (Visitor σ)) (t : σ) (config : Config)
    (evs : List Event) (v : Value) (hv : ((frontOf next).after (new config, t) evs).1.Holds v) :
    Grounded config.trackLocals (applications next (new config, t) [] evs) v :=
  (after_informed (informed_new config)).held v hv

/-- A body before, with a constant of its own; then the largest number is stored, incremented past
the end of the words and reloaded, and a field is read. -/
def wrappedCounter : List Event :=
  [.method { name := "first", descriptor := "()V" }, .code,
    .instruction (some (.int .bipush 7)), .finish,
    .method { name := "second", descriptor := "()V" }, .code,
    .instruction (some (.ldc none (.int 2147483647))), .instruction (some (.plain ⟨0x3C⟩)),
    .instruction (some (.iinc 1 3)), .instruction (some (.plain ⟨0x1B⟩)),
    .instruction (some (.field .getstatic "A" "f" "I"))]

/-- No instruction of the second body pushed the number that is reloaded, so it was counted. The
constant of the first body is gone. -/
theorem held_values_are_grounded_wrapped :
    let st := (new { trackLocals := true }, ())
    let past := applications (none : Option (Visitor Unit)) st [] wrappedCounter
    ((frontOf (none : Option (Visitor Unit))).after st wrappedCounter).1.stack =
        some [.ofField ⟨"A", "f", "I"⟩, .const FieldType.int (.int (-2147483646))] ∧
      past.length = 5 ∧ (∀ ins ∈ past, ins.constant? ≠ some (.int (-2147483646))) ∧
      Counted past (-2147483646) ∧
      ∃ op, (op = .getstatic ∨ op = .getfield) ∧ .field op "A" "f" "I" ∈ past := by
  intro st past
  have hstack : ((frontOf (none : Option (Visitor Unit))).after st wrappedCounter).1.stack =
      some [.ofField ⟨"A", "f", "I"⟩, .const FieldType.int (.int (-2147483646))] := by
    decide +kernel
  have hpushed : ∀ ins ∈ past, ins.constant? ≠ some (.int (-2147483646)) := by decide +kernel
  have hfield := held_values_are_grounded none () { trackLocals := true } wrappedCounter _
    (.entry hstack (List.mem_cons_self))
  have hnumber := held_values_are_grounded none () { trackLocals := true } wrappedCounter _
    (.entry hstack (List.mem_cons_of_mem _ List.mem_cons_self))
  refine ⟨hstack, by decide +kernel, hpushed, ?_, hfield.field _ rfl⟩
  rcases hnumber.constant _ rfl with ⟨ins, hins, hconst⟩ | ⟨-, k, heq, hcounted⟩
  · exact absurd hconst (hpushed ins hins)
  · cases heq
    exact hcounted

end Engine

end OperandStack
