import OperandStack.Proofs.Outcome
import OperandStack.Stack.Effect

/-!
# Stack effects are what instructions do

The effect of an instruction is found without applying it: from the counts of its opcode, from a
method descriptor, from an operand, or from the words on the stack. Applying it looks at none of
these numbers but the entries to take. Here the two are compared: an instruction that is applied
takes and leaves as many entries as its effect says, on top of entries that stay as they were but
for a constructor call, and an instruction that lacks entries asked for those of its effect.
-/

namespace OperandStack

def Instruction.isConstructorCall : Instruction → Bool
  | .method op _ name _ _ => op = .invokespecial && name = Engine.constructorName
  | _ => false

/-- The words that an operation reaches: those on top, and those under them. -/
def Action.words? : Action → Option (Nat × Nat)
  | .dropWords => some (2, 0)
  | .dupWords top under => some (top, under)
  | _ => none

/-- The words that effects count are those that operations reach, and one of these operations
drops them. -/
theorem Effect.lookup_shuffles : ∀ p ∈ Operation.all.zipIdx,
    shuffles.lookup ⟨p.2.toUInt8⟩ = p.1.action.words? ∧
      (p.2 = Opcode.pop2.code.toNat ↔ p.1.action = .dropWords) := by
  decide +kernel

theorem Operation.form_of_words? :
    ∀ o ∈ Operation.all, o.action.words?.isSome → o.form = .insn := by
  decide +kernel

namespace Instruction

variable {ins : Instruction} {action : Action}

theorem Performs.form_of_words? (h : ins.Performs action) (hwords : action.words?.isSome) :
    ins.form = .insn := by
  obtain ⟨o, hop, hform, rfl⟩ := h
  rw [hform]
  exact Operation.form_of_words? o (List.mem_of_getElem? hop) hwords

theorem Performs.lookup_shuffles (h : ins.Performs action) :
    Effect.shuffles.lookup ins.opcode = action.words? ∧
      (ins.opcode = .pop2 ↔ action = .dropWords) := by
  obtain ⟨o, hop, -, rfl⟩ := h
  have hrow := Effect.lookup_shuffles _ (List.mk_mem_zipIdx_iff_getElem?.2 hop)
  have hcode : (⟨ins.opcode.code.toNat.toUInt8⟩ : Opcode) = ins.opcode := by
    simp [Nat.toUInt8]
  rw [hcode, UInt8.toNat_inj] at hrow
  refine ⟨hrow.1, ?_⟩
  rw [← hrow.2]
  cases ins.opcode
  simp [Opcode.pop2]

theorem effect_of_counts {pops pushes : Nat} (hcounts : ins.opcode.counts? = some (pops, pushes))
    (s : Operands) : ins.effect s = .ok ⟨pops, pushes⟩ := by
  obtain ⟨o, hop, ho⟩ := Option.bind_eq_some_iff.1 hcounts
  simp only [effect, hop, ho]

theorem Performs.effect_of_isDynamic (h : ins.Performs action)
    (hdynamic : action.isDynamic = true) (s : Operands) :
    ins.effect s = Effect.ofDynamic ins s := by
  obtain ⟨o, hop, -, rfl⟩ := h
  have hcounts := (Operation.counts_eq_none_iff o (List.mem_of_getElem? hop)).2 hdynamic
  simp only [effect, hop, hcounts]

theorem Performs.effect_of_words? (h : ins.Performs action) {top under : Nat}
    (hwords : action.words? = some (top, under)) (s : Operands) :
    ins.effect s = Effect.ofShuffle ins.opcode top under s := by
  have hform := h.form_of_words? (Option.isSome_iff_exists.2 ⟨_, hwords⟩)
  have hlookup := h.lookup_shuffles.1.trans hwords
  have hdynamic : action.isDynamic = true := by
    cases action <;> first | rfl | cases hwords
  rw [h.effect_of_isDynamic hdynamic]
  cases ins
  case plain | foreign => simp only [Effect.ofDynamic, hlookup]
  all_goals cases hform

theorem Performs.opcode_ne_pop2 {top under : Nat} (h : ins.Performs (.dupWords top under)) :
    ins.opcode ≠ .pop2 := by
  intro hop
  cases h.lookup_shuffles.2.1 hop

end Instruction

theorem Effect.ofDynamic_method {op : Opcode} {owner name desc : Text} {interface : Bool}
    {m : MethodDescriptor} (hparse : MethodDescriptor.parse desc = .ok m) (s : Operands) :
    ofDynamic (.method op owner name desc interface) s =
      .ok ⟨Action.callArity op m, (Action.callResult m).length⟩ := by
  simp only [ofDynamic, hparse, ofCall, Action.callArity, Action.callResult]
  congr 2
  · by_cases hop : op = .invokestatic <;> simp [hop]
  · split <;> rfl

theorem Effect.ofDynamic_invokeDynamic {name desc : Text} {bootstrap : Handle}
    {m : MethodDescriptor} (hparse : MethodDescriptor.parse desc = .ok m) (s : Operands) :
    ofDynamic (.invokeDynamic name desc bootstrap) s =
      .ok ⟨m.params.length, (Action.callResult m).length⟩ := by
  simp only [ofDynamic, hparse, ofCall, Action.callResult]
  congr 2
  split <;> rfl

namespace Action

variable {ins : Instruction} {action : Action} {e : Engine} {s : Operands}

theorem Applies.taken_le {c : Change} (happly : action.Applies e s ins c) :
    c.taken ≤ s.length := by
  cases happly with
  | fixed _ _ hle _ => exact hle
  | dropWords hn => simpa using Operands.add_le_of_countWords? (Nat.zero_le _) hn
  | dupWords hn hm =>
      have hle := Operands.add_le_of_countWords? (Nat.zero_le _) hn
      exact Operands.add_le_of_countWords? (by omega) hm
  | invoke _ hle => exact hle
  | invokeDynamic _ hle => exact hle
  | newMultiArray _ _ _ hle => exact hle

/-- What is applied takes and leaves as many entries as the effect says. -/
theorem Applies.effect {c : Change} (happly : action.Applies e s ins c)
    (h : ins.Performs action) : ins.effect s = .ok ⟨c.taken, c.update.push.length⟩ := by
  have hle := happly.taken_le
  cases happly with
  | fixed hfixed hcounts _ hrun =>
      rw [Instruction.effect_of_counts hcounts, run_push_length hfixed hrun,
        h.pushes_eq hfixed hcounts]
  | dropWords hn =>
      simp only [h.effect_of_words? rfl, Effect.ofShuffle, hn, h.lookup_shuffles.2.2 rfl, if_true]
      rfl
  | @dupWords _ top under n m hn hm =>
      simp only [h.effect_of_words? rfl, Effect.ofShuffle, hn, hm, h.opcode_ne_pop2, if_false,
        List.length_append, List.length_take, List.length_drop] at hle ⊢
      congr 2
      omega
  | invoke hparse _ => rw [h.effect_of_isDynamic rfl, Effect.ofDynamic_method hparse]
  | invokeDynamic hparse _ =>
      rw [h.effect_of_isDynamic rfl, Effect.ofDynamic_invokeDynamic hparse]
  | newMultiArray =>
      rw [h.effect_of_isDynamic rfl]
      rfl

/-- References are settled by constructor calls only, on a fresh receiver. -/
theorem Applies.settles_cases {c : Change} (happly : action.Applies e s ins c) :
    c.settles = none ∨ ins.isConstructorCall = true ∧
      ∃ receiver ∈ s.take c.taken, receiver.isUninitialized = true ∧
        c.settles = some receiver.site := by
  cases happly with
  | @invoke op owner name desc interface m hparse hle =>
      cases hr : (s.take (callArity op m))[m.params.length]? with
      | none => exact .inl rfl
      | some receiver =>
          simp only [settled?]
          split
          · next hc =>
            simp only [Bool.and_eq_true] at hc
            refine .inr ⟨?_, receiver, List.mem_of_getElem? hr, hc.2, rfl⟩
            simpa [Instruction.isConstructorCall] using hc.1
          · exact .inl rfl
  | _ => exact .inl rfl

/-- What is lacking are entries of the effect, where there is one. -/
theorem Lacks.effect {u : Underflow} (hlack : action.Lacks s ins u) (h : ins.Performs action) :
    ins.effect s = .error (.underflow u) ∨ ∃ pushes, ins.effect s = .ok ⟨u.needed, pushes⟩ := by
  cases hlack with
  | fixed _ hcounts _ => exact .inr ⟨_, Instruction.effect_of_counts hcounts s⟩
  | dropWords hn =>
      left
      simp only [h.effect_of_words? rfl, Effect.ofShuffle, hn]
  | dupTop hn =>
      left
      simp only [h.effect_of_words? rfl, Effect.ofShuffle, hn]
  | dupUnder hn hm =>
      left
      simp only [h.effect_of_words? rfl, Effect.ofShuffle, hn, hm, h.opcode_ne_pop2, if_false]
  | invoke hparse _ =>
      rw [h.effect_of_isDynamic rfl, Effect.ofDynamic_method hparse]
      exact .inr ⟨_, rfl⟩
  | invokeDynamic hparse _ =>
      rw [h.effect_of_isDynamic rfl, Effect.ofDynamic_invokeDynamic hparse]
      exact .inr ⟨_, rfl⟩
  | newMultiArray _ =>
      rw [h.effect_of_isDynamic rfl]
      exact .inr ⟨1, rfl⟩

theorem Lacks.size_lt_needed {u : Underflow} (hlack : action.Lacks s ins u) :
    u.size = s.length ∧ (u.size : Int) < u.needed := by
  cases hlack <;> refine ⟨rfl, ?_⟩ <;> simp only [Operands.shortfall] <;> omega

end Action

/-! ## Applied instructions -/

theorem Effect.nextSize_eq_length {s t : Operands} {pops pushes : Nat} (hle : pops ≤ s.length)
    (hlength : t.length = s.length - pops + pushes) :
    (Effect.mk pops pushes).nextSize s.length = word64 t.length := by
  simp only [nextSize, hlength]
  congr 1
  omega

theorem Engine.change_stack (e : Engine) (s : Operands) (c : Change) :
    (e.change s c).stack =
      some (c.update.push ++ Operands.settle c.settles (s.drop c.taken)) := rfl

/-- An instruction that is accepted takes and leaves what its effect says, and the entries below
are kept but for those that a constructor call settles. One that lacks entries asked for more
than there were, for as many as its effect says where there is one. -/
theorem Engine.instruction_stack_effect (e : Engine) (s : Operands) (ins : Instruction)
    (hphase : e.phase = .inCode) (hsticky : e.sticky = none) (hstack : e.stack = some s) :
    ((e.visit (.instruction (some ins))).2.result = none →
      ∃ (pops pushes : Nat) (t : Operands),
        ins.effect s = .ok ⟨pops, pushes⟩ ∧ pops ≤ s.length ∧
        (e.visit (.instruction (some ins))).1.stack = some t ∧
        t.length = s.length - pops + pushes ∧
        ins.nextSize s = .ok (word64 t.length) ∧
        (t.length < Nat.pow 2 63 → ins.nextSize s = .ok t.length) ∧
        (t.drop pushes = s.drop pops ∨
          ins.isConstructorCall = true ∧
          ∃ receiver ∈ s.take pops, receiver.isUninitialized = true ∧
            t.drop pushes = (s.drop pops).map fun v =>
              if v.site = receiver.site then v.initialized else v)) ∧
    (∀ (op : Opcode) (index : Nat) (u : Underflow),
      (e.visit (.instruction (some ins))).2.result = some (.fault (.underflowAt op index u)) →
      u.size = s.length ∧ (u.size : Int) < u.needed ∧
      (ins.effect s = .error (.underflow u) ∨
        ∃ pushes, ins.effect s = .ok ⟨u.needed, pushes⟩)) := by
  constructor
  · intro h
    obtain ⟨action, c, hperforms, happly, hengine⟩ :=
      visit_instruction_applies hphase hsticky hstack h
    have heffect := happly.effect hperforms
    have hle := happly.taken_le
    have hlength : (c.update.push ++ Operands.settle c.settles (s.drop c.taken)).length =
        s.length - c.taken + c.update.push.length := by
      simp only [Operands.settle, List.length_append, List.length_map, List.length_drop]
      omega
    have hnext : ins.nextSize s =
        .ok (word64 (c.update.push ++ Operands.settle c.settles (s.drop c.taken)).length) := by
      rw [Instruction.nextSize, heffect, ← Effect.nextSize_eq_length hle hlength]
      rfl
    refine ⟨c.taken, c.update.push.length, _, heffect, hle, ?_, hlength, hnext, ?_, ?_⟩
    · rw [hengine]
      exact change_stack e.counted s c
    · intro hlt
      have hsize : Nat.pow 2 63 = 9223372036854775808 := rfl
      rw [hnext, word64_of_range (by omega) (by omega)]
    · rw [List.drop_left]
      obtain hnone | ⟨hcall, receiver, hmem, hfresh, hsome⟩ := happly.settles_cases
      · rw [hnone, Operands.settle_none]
        exact .inl rfl
      · refine .inr ⟨hcall, receiver, hmem, hfresh, ?_⟩
        rw [hsome, Operands.settle]
        exact List.map_congr_left fun v _ => Value.settle_some receiver.site v
  · intro op index u h
    obtain ⟨action, hperforms, hlack, -, -⟩ := visit_instruction_lacks hphase hsticky hstack h
    exact ⟨hlack.size_lt_needed.1, hlack.size_lt_needed.2, hlack.effect hperforms⟩

/-- An engine with an int above two copies of a fresh reference. -/
def Engine.holdingFresh : Engine :=
  { config := {}
    phase := .inCode
    stack := some [.typed FieldType.int, ⟨"LA;", none, none, false, 1⟩,
      ⟨"LA;", none, none, false, 1⟩, .typed FieldType.long]
    sites := 1
    sampler := ⟨0, 0⟩ }

/-- A constructor call that settles the copy below its receiver, and an addition that lacks an
operand. -/
theorem Engine.instruction_stack_effect_fresh :
    ((holdingFresh.visit (.instruction
        (some (.method .invokespecial "A" "<init>" "(I)V" false)))).2.result = none ∧
      ∃ (pops pushes : Nat) (t : Operands),
        (Instruction.method .invokespecial "A" "<init>" "(I)V" false).effect
          (holdingFresh.stack.getD []) = .ok ⟨pops, pushes⟩ ∧
        (holdingFresh.visit (.instruction
          (some (.method .invokespecial "A" "<init>" "(I)V" false)))).1.stack = some t ∧
        t.length = 4 - pops + pushes) ∧
    (holdingLong.visit (.instruction (some (.plain ⟨0x60⟩)))).2.result =
        some (.fault (.underflowAt ⟨0x60⟩ 7 ⟨1, 2⟩)) ∧
      ((Instruction.plain ⟨0x60⟩).effect [.typed FieldType.long] = .error (.underflow ⟨1, 2⟩) ∨
        ∃ pushes, (Instruction.plain ⟨0x60⟩).effect [.typed FieldType.long] =
          .ok ⟨2, pushes⟩) := by
  have haccepted : (holdingFresh.visit (.instruction
      (some (.method .invokespecial "A" "<init>" "(I)V" false)))).2.result = none := by
    decide +kernel
  have hlacking : (holdingLong.visit (.instruction (some (.plain ⟨0x60⟩)))).2.result =
      some (.fault (.underflowAt ⟨0x60⟩ 7 ⟨1, 2⟩)) := by decide +kernel
  obtain ⟨pops, pushes, t, heffect, -, hstack, hlength, -⟩ :=
    (instruction_stack_effect holdingFresh _ _ rfl rfl rfl).1 haccepted
  have hunder := (instruction_stack_effect holdingLong _ _ rfl rfl rfl).2 _ _ _ hlacking
  exact ⟨⟨haccepted, pops, pushes, t, heffect, hstack, hlength⟩, hlacking, hunder.2.2⟩

end OperandStack
