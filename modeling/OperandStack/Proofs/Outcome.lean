import OperandStack.Engine.Recorder
import OperandStack.Proofs.Execution

/-!
# The outcome of an instruction

Applying an instruction ends in one of four ways. It makes a change: entries are taken off the
stack, the references of one allocation may be settled, and an update is carried out on what is
left. Or the stack lacks entries, or the operation refuses the instruction for another reason;
both leave the engine as it was. Or it crashes, with some of the stack taken off.

`Action.Applies` and `Action.Lacks` give the first two cases operation by operation, and
`Engine.apply_outcome` says that there are no others. What holds of every instruction is derived
from these relations and not from the code of the operations.
-/

namespace OperandStack

namespace Action

/-- The changes that operations make. -/
inductive Applies (e : Engine) (s : Operands) : Action → Instruction → Change → Prop
  | fixed {action : Action} {ins : Instruction} {pops pushes : Nat} {u : Update} :
      action.isDynamic = false → ins.opcode.counts? = some (pops, pushes) → pops ≤ s.length →
      action.run e ins (s.take pops) = .ok u →
      Applies e s action ins { taken := pops, update := u }
  | dropWords {ins : Instruction} {n : Nat} :
      s.countWords? 0 2 = some n → Applies e s .dropWords ins { taken := n }
  | dupWords {ins : Instruction} {top under n m : Nat} :
      s.countWords? 0 top = some n → s.countWords? n under = some m →
      Applies e s (.dupWords top under) ins
        { taken := n + m, update := { push := s.take n ++ ((s.drop n).take m ++ s.take n) } }
  | invoke {op : Opcode} {owner name desc : Text} {interface : Bool} {m : MethodDescriptor} :
      MethodDescriptor.parse desc = .ok m → callArity op m ≤ s.length →
      Applies e s .invoke (.method op owner name desc interface)
        { taken := callArity op m
          settles := settled? op name (s.take (callArity op m))[m.params.length]?
          update := { push := callResult m } }
  | invokeDynamic {name desc : Text} {bootstrap : Handle} {m : MethodDescriptor} :
      MethodDescriptor.parse desc = .ok m → m.params.length ≤ s.length →
      Applies e s .invokeDynamic (.invokeDynamic name desc bootstrap)
        { taken := m.params.length, update := { push := callResult m } }
  | newMultiArray {desc : Text} {dims : Nat} :
      FieldType.validate desc = .ok () → 1 ≤ dims → dims ≤ FieldType.dimensions desc →
      dims ≤ s.length →
      Applies e s .newMultiArray (.multiNewArray desc dims)
        { taken := dims, update := { push := [.typed desc] } }

/-- The underflows that operations report. -/
inductive Lacks (s : Operands) : Action → Instruction → Underflow → Prop
  | fixed {action : Action} {ins : Instruction} {pops pushes : Nat} :
      action.isDynamic = false → ins.opcode.counts? = some (pops, pushes) → s.length < pops →
      Lacks s action ins ⟨s.length, pops⟩
  | dropWords {ins : Instruction} :
      s.countWords? 0 2 = none → Lacks s .dropWords ins s.shortfall
  | dupTop {ins : Instruction} {top under : Nat} :
      s.countWords? 0 top = none → Lacks s (.dupWords top under) ins s.shortfall
  | dupUnder {ins : Instruction} {top under n : Nat} :
      s.countWords? 0 top = some n → s.countWords? n under = none →
      Lacks s (.dupWords top under) ins s.shortfall
  | invoke {op : Opcode} {owner name desc : Text} {interface : Bool} {m : MethodDescriptor} :
      MethodDescriptor.parse desc = .ok m → s.length < callArity op m →
      Lacks s .invoke (.method op owner name desc interface) ⟨s.length, callArity op m⟩
  | invokeDynamic {name desc : Text} {bootstrap : Handle} {m : MethodDescriptor} :
      MethodDescriptor.parse desc = .ok m → s.length < m.params.length →
      Lacks s .invokeDynamic (.invokeDynamic name desc bootstrap) ⟨s.length, m.params.length⟩
  | newMultiArray {desc : Text} {dims : Nat} :
      s.length < dims →
      Lacks s .newMultiArray (.multiNewArray desc dims) ⟨s.length, dims⟩

end Action

def Malformation.isRange : Malformation → Bool
  | .byteRange _ => true
  | .shortRange _ => true
  | .category _ => true
  | .slotRange _ => true
  | .incrementRange _ => true
  | .arrayType _ => true
  | .dimensions _ _ => true
  | _ => false

def Malformation.isNoType : Malformation → Bool
  | .noClass => true
  | .noElementType => true
  | .noTargetType => true
  | _ => false

/-- Why instructions are refused, whatever the stack holds. -/
inductive Instruction.Refusal : Option Instruction → Fault → Prop
  | absent : Refusal none (.malformed .nop .absent)
  | undefined {ins : Instruction} : ins.opcode.operation? = none →
      Refusal (some ins) (.invalidOpcode ins.opcode)
  | form {ins : Instruction} {o : Operation} : ins.opcode.operation? = some o →
      ins.form ≠ o.form → Refusal (some ins) (.malformed ins.opcode (.form ins.form o.form))
  | range {ins : Instruction} {op : Opcode} {why : Malformation} : why.isRange →
      Refusal (some ins) (.malformed op why)
  | noTarget {op : Opcode} : Refusal (some (.jump op none)) (.malformed op .noTarget)
  | noType {op : Opcode} {why : Malformation} : why.isNoType →
      Refusal (some (.type op [])) (.malformed op why)
  | member {ins : Instruction} {op : Opcode} {owner name : Text} {err : DescriptorError} :
      Refusal (some ins) (.member op owner name err)
  | callSite {ins : Instruction} {name : Text} {err : DescriptorError} :
      Refusal (some ins) (.callSite name err)
  | arrayDescriptor {ins : Instruction} {err : DescriptorError} :
      Refusal (some ins) (.arrayDescriptor err)

/-- The opcode is in use, its operation does `action`, and the instruction has the form of its
opcode. -/
def Instruction.Performs (ins : Instruction) (action : Action) : Prop :=
  ∃ o, ins.opcode.operation? = some o ∧ ins.form = o.form ∧ o.action = action

namespace Engine

/-- The ways in which applying an instruction to a stack can end. -/
inductive Outcome (e : Engine) (index : Nat) (s : Operands) :
    Option Instruction → Engine × Option Stop → Prop
  | applied {ins : Instruction} {action : Action} {c : Change} :
      ins.Performs action → action.Applies e s ins c →
      Outcome e index s (some ins) (e.change s c, none)
  | lacking {ins : Instruction} {action : Action} {u : Underflow} :
      ins.Performs action → action.Lacks s ins u →
      Outcome e index s (some ins) (e, some (.fault (.underflowAt ins.opcode index u)))
  | refused {ins : Option Instruction} {f : Fault} :
      Instruction.Refusal ins f → Outcome e index s ins (e, some (.fault f))
  /-- An instruction of the thirteen forms crashes for lack of a number for what it allocates. -/
  | crashed {ins : Instruction} {n : Nat} {c : Crash} :
      (ins.isClosed → word64 (e.sites + 1) ≤ 0) →
      Outcome e index s (some ins) ({ e with stack := some (s.drop n) }, some (.crash c))

end Engine

theorem slotOf_refusal {ins : Instruction} {implied : Option Nat} {f : Fault}
    (h : slotOf ins implied = .error (.fault f)) : Instruction.Refusal (some ins) f := by
  unfold slotOf at h
  repeat' split at h
  all_goals cases h
  exact .range rfl

/-- Operations with fixed counts have their operands already, so none of them asks for more. -/
theorem Action.run_refusal {action : Action} {e : Engine} {ins : Instruction} {args : Operands}
    {f : Fault} (h : action.run e ins args = .error (.fault f)) :
    Instruction.Refusal (some ins) f := by
  cases action
  case load kind implied =>
    simp only [Action.run] at h
    split at h
    · cases h
    · next hslot =>
      cases h
      exact slotOf_refusal hslot
  case store implied =>
    simp only [Action.run] at h
    split at h
    · split at h <;> cases h
    · next hslot =>
      cases h
      exact slotOf_refusal hslot
  case pushNarrow range =>
    simp only [Action.run] at h
    cases range <;> repeat' split at h
    all_goals cases h
    all_goals exact .range rfl
  case callSubroutine =>
    simp only [Action.run] at h
    repeat' split at h
    all_goals cases h
    exact .noTarget
  case readField =>
    simp only [Action.run] at h
    repeat' split at h
    all_goals cases h
    exact .member
  case allocate | newReferenceArray | cast =>
    simp only [Action.run] at h
    split at h
    · next name =>
      cases name with
      | nil =>
          cases h
          exact .noType rfl
      | cons =>
          simp only [List.isEmpty_cons, Bool.false_eq_true, if_false] at h
          repeat' split at h
          all_goals cases h
    · cases h
  all_goals
    simp only [Action.run] at h
    repeat' split at h
    all_goals cases h
    all_goals exact .range rfl

/-- The form whose operands an operation reads. -/
def Action.form? : Action → Option Form
  | .pushNarrow _ => some .int
  | .pushLiteral => some .ldc
  | .load _ none => some .var
  | .store none => some .var
  | .increment => some .iinc
  | .callSubroutine => some .jump
  | .readField => some .field
  | .invoke => some .method
  | .invokeDynamic => some .invokeDynamic
  | .allocate => some .type
  | .newPrimitiveArray => some .int
  | .newReferenceArray => some .type
  | .newMultiArray => some .multiNewArray
  | .cast => some .type
  | _ => none

theorem Operation.form_of_form? :
    ∀ o ∈ Operation.all, ∀ form ∈ o.action.form?, o.form = form := by
  decide +kernel

/-- An instruction with the operands of a form. -/
inductive Instruction.Carries : Instruction → Form → Prop
  | plain {op : Opcode} : Carries (.plain op) .insn
  | int {op : Opcode} {n : Int} : Carries (.int op n) .int
  | var {op : Opcode} {slot : Int} : Carries (.var op slot) .var
  | type {op : Opcode} {name : Text} : Carries (.type op name) .type
  | field {op : Opcode} {owner name desc : Text} : Carries (.field op owner name desc) .field
  | method {op : Opcode} {owner name desc : Text} {interface : Bool} :
      Carries (.method op owner name desc interface) .method
  | invokeDynamic {name desc : Text} {bootstrap : Handle} :
      Carries (.invokeDynamic name desc bootstrap) .invokeDynamic
  | jump {op : Opcode} {target : Option Label} : Carries (.jump op target) .jump
  | ldc {op : Option Opcode} {value : Literal} : Carries (.ldc op value) .ldc
  | iinc {slot inc : Int} : Carries (.iinc slot inc) .iinc
  | tableSwitch {min max : Int} {targets : List (Option Label)} {fallback : Option Label} :
      Carries (.tableSwitch min max targets fallback) .tableSwitch
  | lookupSwitch {keys : List Int} {targets : List (Option Label)} {fallback : Option Label} :
      Carries (.lookupSwitch keys targets fallback) .lookupSwitch
  | multiNewArray {desc : Text} {dims : Int} : Carries (.multiNewArray desc dims) .multiNewArray

section
variable {ins : Instruction} {action : Action}

theorem Instruction.carries_of_isClosed (h : ins.isClosed) : ins.Carries ins.form := by
  cases ins with
  | foreign => cases h
  | _ => constructor

theorem Instruction.Performs.carries (h : ins.Performs action) (hclosed : ins.isClosed)
    {form : Form} (hform : action.form? = some form) : ins.Carries form := by
  obtain ⟨o, hop, ho, rfl⟩ := h
  rw [← Operation.form_of_form? o (List.mem_of_getElem? hop) form hform, ← ho]
  exact carries_of_isClosed hclosed

theorem slotOf_ne_crash {implied : Option Nat} (hcarries : implied = none → ins.Carries .var)
    (c : Crash) : slotOf ins implied ≠ .error (.crash c) := by
  intro h
  cases implied with
  | some n => cases h
  | none =>
      cases hcarries rfl
      simp only [slotOf] at h
      split at h <;> cases h

theorem Instruction.Performs.counts (h : ins.Performs action) (hfixed : action.isDynamic = false) :
    ∃ pops, ins.opcode.counts? = some (pops, action.leaves) ∧ ∀ n ∈ action.takes?, pops = n := by
  obtain ⟨o, hop, -, rfl⟩ := h
  have hmem := List.mem_of_getElem? hop
  rcases hcounts : o.counts with _ | ⟨pops, pushes⟩
  · rw [(Operation.counts_eq_none_iff o hmem).1 hcounts] at hfixed
    cases hfixed
  · obtain ⟨hpushes, hpops⟩ := Operation.counts_of_action o hmem (pops, pushes) hcounts
    refine ⟨pops, ?_, hpops⟩
    rw [Opcode.counts?, hop, Option.bind_some, hcounts, ← hpushes]

theorem Instruction.Performs.pops_eq (h : ins.Performs action) (hfixed : action.isDynamic = false)
    {pops pushes n : Nat} (hcounts : ins.opcode.counts? = some (pops, pushes))
    (htakes : action.takes? = some n) : pops = n := by
  obtain ⟨pops', htable, hpops⟩ := h.counts hfixed
  cases hcounts.symm.trans htable
  exact hpops n htakes

theorem Instruction.Performs.pushes_eq (h : ins.Performs action)
    (hfixed : action.isDynamic = false) {pops pushes : Nat}
    (hcounts : ins.opcode.counts? = some (pops, pushes)) : pushes = action.leaves := by
  obtain ⟨pops', htable, -⟩ := h.counts hfixed
  cases hcounts.symm.trans htable
  rfl

/-- The operands are there, so that an operation crashes for lack of a number for what it allocates
at most. -/
theorem Action.run_crash {e : Engine} {args : Operands} {c : Crash}
    (hperforms : ins.Performs action) (hclosed : ins.isClosed)
    (hargs : ∀ n ∈ action.takes?, args.length = n)
    (h : action.run e ins args = .error (.crash c)) : word64 (e.sites + 1) ≤ 0 := by
  have hcarries {form : Form} : action.form? = some form → ins.Carries form :=
    hperforms.carries hclosed
  cases action
  case allocate =>
    cases hcarries rfl
    simp only [Action.run] at h
    split at h
    · cases h
    · split at h
      · cases h
      · next hnone => simpa [Value.uninitialized?] using hnone
  case load kind implied =>
    simp only [Action.run] at h
    split at h
    · cases h
    · next hslot =>
      cases h
      exact absurd hslot (slotOf_ne_crash (fun hnone => hcarries (by rw [hnone]; rfl)) c)
  case store implied =>
    obtain ⟨v, rfl⟩ := List.length_eq_one_iff.1 (hargs 1 rfl)
    simp only [Action.run] at h
    split at h
    · cases h
    · next hslot =>
      cases h
      exact absurd hslot (slotOf_ne_crash (fun hnone => hcarries (by rw [hnone]; rfl)) c)
  case cast =>
    obtain ⟨v, rfl⟩ := List.length_eq_one_iff.1 (hargs 1 rfl)
    cases hcarries rfl
    simp only [Action.run] at h
    split at h <;> cases h
  case callSubroutine =>
    cases hcarries rfl with
    | @jump _ target => cases target <;> cases h
  case dup | returnValue =>
    obtain ⟨v, rfl⟩ := List.length_eq_one_iff.1 (hargs 1 rfl)
    cases h
  case loadElement | dupBelow | swap =>
    cases args with
    | nil => cases hargs 2 rfl
    | cons v args =>
        obtain ⟨w, rfl⟩ := List.length_eq_one_iff.1 (Nat.succ.inj (hargs 2 rfl))
        cases h
  case pushNarrow range =>
    cases hcarries rfl
    cases range <;> simp only [Action.run] at h <;> split at h <;> cases h
  case dropWords | dupWords | invoke | invokeDynamic | newMultiArray => cases h
  case idle | drop | push | compute => cases h
  -- What is left reads its operands from the instruction.
  all_goals
    cases hcarries rfl
    simp only [Action.run] at h
    repeat' split at h
    all_goals cases h
end

/-! ## The change of an operation -/

theorem Change.checked_eq_ok_iff {c c' : Change} {s : Operands} :
    c.checked s = .ok c' ↔ c.taken ≤ s.length ∧ c = c' := by
  unfold checked
  split
  · next hle => simp [hle]
  · next hle => simp [hle]

theorem Change.checked_eq_error_iff {c : Change} {s : Operands} {stop : Stop} :
    c.checked s = .error stop ↔
      s.length < c.taken ∧ stop = .fault (.underflow ⟨s.length, c.taken⟩) := by
  unfold checked
  split
  · next hle => simp [Nat.not_lt.2 hle]
  · next hle => simp [Nat.not_le.1 hle, eq_comm]

/-- What the change of an operation says: it applies, the stack lacks entries, the instruction is
refused, or the operation crashes. An instruction of the thirteen forms crashes for lack of a
number for what it allocates. -/
inductive Action.Verdict (e : Engine) (s : Operands) (action : Action) (ins : Instruction) :
    Except Stop Change → Prop
  | applies {c : Change} : action.Applies e s ins c → Verdict e s action ins (.ok c)
  | lacks {u : Underflow} : action.Lacks s ins u →
      Verdict e s action ins (.error (.fault (.underflow u)))
  | refuses {f : Fault} : Instruction.Refusal (some ins) f →
      Verdict e s action ins (.error (.fault f))
  | crashes {c : Crash} : (ins.isClosed → word64 (e.sites + 1) ≤ 0) →
      Verdict e s action ins (.error (.crash c))

namespace Action

section
variable {e : Engine} {s : Operands} {ins : Instruction} {action : Action}

theorem verdict_checked {c : Change} (happly : c.taken ≤ s.length → action.Applies e s ins c)
    (hlack : s.length < c.taken → action.Lacks s ins ⟨s.length, c.taken⟩) :
    Verdict e s action ins (c.checked s) := by
  cases h : c.checked s with
  | ok c' =>
      obtain ⟨hle, rfl⟩ := Change.checked_eq_ok_iff.1 h
      exact .applies (happly hle)
  | error stop =>
      obtain ⟨hlt, rfl⟩ := Change.checked_eq_error_iff.1 h
      exact .lacks (hlack hlt)

theorem verdict_dropWords : Verdict e s .dropWords ins (Action.dropWords.changeOf ins s) := by
  simp only [changeOf]
  cases hn : s.countWords? 0 2 with
  | none => exact .lacks (.dropWords hn)
  | some n => exact .applies (.dropWords hn)

theorem verdict_dupWords {top under : Nat} :
    Verdict e s (.dupWords top under) ins ((Action.dupWords top under).changeOf ins s) := by
  simp only [changeOf]
  cases hn : s.countWords? 0 top with
  | none => exact .lacks (.dupTop hn)
  | some n =>
      simp only
      cases hm : s.countWords? n under with
      | none => exact .lacks (.dupUnder hn hm)
      | some m => exact .applies (.dupWords hn hm)

theorem verdict_invoke {op : Opcode} {owner name desc : Text} {interface : Bool} :
    Verdict e s .invoke (.method op owner name desc interface)
      (call op owner name (MethodDescriptor.parse desc) s) := by
  cases hparse : MethodDescriptor.parse desc with
  | error err => exact .refuses .member
  | ok m =>
      refine verdict_checked (fun hle => ?_) fun hlt => .invoke hparse hlt
      rw [← settled?_take]
      exact .invoke hparse hle

theorem verdict_invokeDynamic {name desc : Text} {bootstrap : Handle} :
    Verdict e s .invokeDynamic (.invokeDynamic name desc bootstrap)
      (callSite name (MethodDescriptor.parse desc) s) := by
  cases hparse : MethodDescriptor.parse desc with
  | error err => exact .refuses .callSite
  | ok m =>
      exact verdict_checked (fun hle => .invokeDynamic hparse hle) fun hlt =>
        .invokeDynamic hparse hlt

theorem verdict_newMultiArray {desc : Text} {dims : Int} :
    Verdict e s .newMultiArray (.multiNewArray desc dims)
      (Action.newMultiArray.changeOf (.multiNewArray desc dims) s) := by
  simp only [changeOf]
  cases hvalid : FieldType.validate desc with
  | error err => exact .refuses .arrayDescriptor
  | ok =>
      simp only
      split
      · exact .refuses (.range rfl)
      · next hdims =>
        simp only [Bool.or_eq_true, decide_eq_true_eq, not_or, Int.not_lt] at hdims
        -- The check has left positive numbers of dimensions only.
        obtain ⟨n, rfl⟩ := Int.eq_ofNat_of_zero_le (by omega : 0 ≤ dims)
        exact verdict_checked
          (fun hle => .newMultiArray hvalid (by omega) (by omega) hle) fun hlt => .newMultiArray hlt

theorem verdict_changeOf (h : ins.Performs action) (hdynamic : action.isDynamic = true) :
    Verdict e s action ins (action.changeOf ins s) := by
  have hcarries {form : Form} : action.form? = some form → ins.isClosed → ins.Carries form :=
    fun hform hclosed => h.carries hclosed hform
  -- What crashes here is a foreign instruction.
  have hforeign {form : Form} (hform : action.form? = some form) (hne : ¬ins.Carries form) :
      Verdict e s action ins (.error (.crash .foreignOperand)) :=
    .crashes fun hclosed => absurd (hcarries hform hclosed) hne
  cases action
  case dropWords => exact verdict_dropWords
  case dupWords => exact verdict_dupWords
  case invoke =>
    cases ins
    case method => exact verdict_invoke
    all_goals exact hforeign rfl (by rintro ⟨⟩)
  case invokeDynamic =>
    cases ins
    case invokeDynamic => exact verdict_invokeDynamic
    all_goals exact hforeign rfl (by rintro ⟨⟩)
  case newMultiArray =>
    cases ins
    case multiNewArray => exact verdict_newMultiArray
    all_goals exact hforeign rfl (by rintro ⟨⟩)
  all_goals cases hdynamic

end

end Action

theorem Operation.change_verdict {o : Operation} {ins : Instruction}
    (hop : ins.opcode.operation? = some o) (hform : ins.form = o.form) (e : Engine)
    (s : Operands) : o.action.Verdict e s ins (o.change e ins s) := by
  have hmem := List.mem_of_getElem? hop
  have hperforms : ins.Performs o.action := ⟨o, hop, hform, rfl⟩
  have hdynamic := Operation.counts_eq_none_iff o hmem
  unfold change
  rcases hcounts : o.counts with _ | ⟨pops, pushes⟩
  · exact Action.verdict_changeOf hperforms (hdynamic.1 hcounts)
  · have hfixed : o.action.isDynamic = false := by
      rw [← Bool.not_eq_true, ← hdynamic, hcounts]
      exact Option.some_ne_none _
    have hin : ins.opcode.counts? = some (pops, pushes) := by
      rw [Opcode.counts?, hop, Option.bind_some, hcounts]
    simp only
    split
    · next hle =>
      have hargs : ∀ n ∈ o.action.takes?, (s.take pops).length = n := fun n hn => by
        rw [List.length_take_of_le hle]
        exact (Operation.counts_of_action o hmem _ hcounts).2 n hn
      rcases hrun : o.action.run e ins (s.take pops) with (f | c) | u
      · exact .refuses (Action.run_refusal hrun)
      · exact .crashes fun hclosed => Action.run_crash hperforms hclosed hargs hrun
      · exact .applies (.fixed hfixed hin hle hrun)
    · next hlt => exact .lacks (.fixed hfixed hin (Nat.not_le.1 hlt))

theorem Instruction.Refusal.blame {ins : Option Instruction} {f : Fault} (h : Refusal ins f)
    (op : Opcode) (index : Nat) : (Stop.fault f).blame op index = .fault f := by
  cases h <;> rfl

namespace Engine

/-- Applying an instruction has no other outcomes. -/
theorem apply_outcome {e : Engine} {s : Operands} (hstack : e.stack = some s) (index : Nat)
    (ins : Option Instruction) : e.Outcome index s ins (e.apply index ins) := by
  cases ins with
  | none => exact .refused .absent
  | some ins =>
      cases hop : ins.opcode.operation? with
      | none =>
          simp only [apply, hop]
          exact .refused (.undefined hop)
      | some o =>
          by_cases hform : ins.form = o.form
          · have h : ins.Performs o.action := ⟨o, hop, hform, rfl⟩
            have hverdict := Operation.change_verdict hop hform e s
            rcases hchange : o.change e ins s with (f | c) | c
            · rw [apply_of_fault hstack hop hform index hchange]
              rw [hchange] at hverdict
              cases hverdict with
              | lacks hlack => exact .lacking h hlack
              | refuses hrefused =>
                  rw [hrefused.blame]
                  exact .refused hrefused
            · rw [apply_of_crash hstack hop hform index hchange]
              rw [hchange] at hverdict
              cases hverdict with
              | crashes hcrash => exact .crashed hcrash
            · rw [apply_of_ok hstack hop hform index hchange]
              rw [hchange] at hverdict
              cases hverdict with
              | applies happly => exact .applied h happly
          · simp only [apply, hop, ne_eq, hform, not_false_eq_true, if_true]
            exact .refused (.form hop hform)

theorem Outcome.applies {e e' : Engine} {index : Nat} {s : Operands} {ins : Instruction}
    (h : e.Outcome index s (some ins) (e', none)) :
    ∃ action c, ins.Performs action ∧ action.Applies e s ins c ∧ e' = e.change s c := by
  cases h with
  | applied hperforms happly => exact ⟨_, _, hperforms, happly, rfl⟩

theorem Outcome.lacks {e e' : Engine} {index i : Nat} {s : Operands} {ins : Instruction}
    {op : Opcode} {u : Underflow}
    (h : e.Outcome index s (some ins) (e', some (.fault (.underflowAt op i u)))) :
    ∃ action, ins.Performs action ∧ action.Lacks s ins u ∧ op = ins.opcode ∧ i = index := by
  cases h with
  | lacking hperforms hlack => exact ⟨_, hperforms, hlack, rfl, rfl⟩
  | refused hf => cases hf

/-- Work that stops the same way on every engine without a stack, and leaves it as it is. A fault
is then a refusal of the instruction. -/
def StopsWithoutStack (ins : Instruction) (w : Work Unit) : Prop :=
  ∃ stop, (∀ f, stop = .fault f → Instruction.Refusal (some ins) f) ∧
    ∀ e : Engine, e.stack = none → w.run e = .error stop e

theorem stopsWithoutStack_of_crash {ins : Instruction} {w : Work Unit} (c : Crash)
    (h : ∀ e : Engine, e.stack = none → w.run e = .error (.crash c) e) :
    StopsWithoutStack ins w :=
  ⟨.crash c, by rintro f ⟨⟩, h⟩

theorem stopsWithoutStack_fail {ins : Instruction} {f : Fault}
    (h : Instruction.Refusal (some ins) f) : StopsWithoutStack ins (Work.fail f) :=
  ⟨.fault f, by rintro g ⟨⟩; exact h, fun _ _ => rfl⟩

theorem stopsWithoutStack_perform {o : Operation} (ho : o ∈ Operation.all) (ins : Instruction) :
    StopsWithoutStack ins (o.perform ins) := by
  have hforeign : StopsWithoutStack ins (Work.crash .foreignOperand) :=
    stopsWithoutStack_of_crash _ fun _ _ => rfl
  have hdynamic := Operation.counts_eq_none_iff o ho
  unfold Operation.perform
  rcases hcounts : o.counts with _ | ⟨pops, pushes⟩
  · have hdyn := hdynamic.1 hcounts
    simp only
    generalize o.action = action at hdyn
    cases action
    case dropWords | dupWords =>
      refine stopsWithoutStack_of_crash .missing fun e hstack => ?_
      exact Work.run_bind_of_error (Work.entries_run_of_no_stack hstack _ _)
    case invoke =>
      cases ins
      case method op owner name desc interface =>
        simp only [Work.execute]
        cases MethodDescriptor.parse desc with
        | error err => exact stopsWithoutStack_fail .member
        | ok m =>
            refine stopsWithoutStack_of_crash .missing fun e hstack => ?_
            exact Work.run_bind_of_error (Work.require_run_of_no_stack hstack _)
      all_goals exact hforeign
    case invokeDynamic =>
      cases ins
      case invokeDynamic name desc bootstrap =>
        simp only [Work.execute]
        cases MethodDescriptor.parse desc with
        | error err => exact stopsWithoutStack_fail .callSite
        | ok m =>
            refine stopsWithoutStack_of_crash .missing fun e hstack => ?_
            exact Work.run_bind_of_error (Work.drop_run_of_no_stack hstack _)
      all_goals exact hforeign
    case newMultiArray =>
      cases ins
      case multiNewArray desc dims =>
        simp only [Work.execute, Work.newMultiArray]
        cases FieldType.validate desc with
        | error err => exact stopsWithoutStack_fail .arrayDescriptor
        | ok =>
            simp only
            split
            · exact stopsWithoutStack_fail (.range rfl)
            · refine stopsWithoutStack_of_crash .missing fun e hstack => ?_
              exact Work.run_bind_of_error (Work.drop_run_of_no_stack hstack _)
      all_goals exact hforeign
    all_goals cases hdyn
  · refine stopsWithoutStack_of_crash .missing fun e hstack => ?_
    exact Work.run_bind_of_error (Work.pop_run_of_no_stack hstack _)

/-- With no stack there is nothing to apply an instruction to. -/
theorem exists_apply_of_no_stack (index : Nat) (ins : Option Instruction) :
    ∃ stop, (∀ f, stop = .fault f → Instruction.Refusal ins f) ∧
      (∀ c, stop = .crash c → ∃ i, ins = some i) ∧
      ∀ e : Engine, e.stack = none → e.apply index ins = (e, some stop) := by
  cases ins with
  | none => exact ⟨_, by rintro f ⟨⟩; exact .absent, by rintro c ⟨⟩, fun _ _ => rfl⟩
  | some ins =>
      cases hop : ins.opcode.operation? with
      | none =>
          simp only [apply, hop]
          exact ⟨_, by rintro f ⟨⟩; exact .undefined hop, by rintro c ⟨⟩, fun _ _ => rfl⟩
      | some o =>
          by_cases hform : ins.form = o.form
          · obtain ⟨stop, hrefusal, hruns⟩ :=
              stopsWithoutStack_perform (List.mem_of_getElem? hop) ins
            have hblame : stop.blame ins.opcode index = stop := by
              cases stop with
              | crash c => rfl
              | fault f => exact (hrefusal f rfl).blame _ _
            refine ⟨stop, hrefusal, fun _ _ => ⟨ins, rfl⟩, fun e hstack => ?_⟩
            simp only [apply_eq_perform hop hform, Work.on, hruns e hstack, hblame]
          · simp only [apply, hop, ne_eq, hform, not_false_eq_true, if_true]
            exact ⟨_, by rintro f ⟨⟩; exact .form hop hform, by rintro c ⟨⟩, fun _ _ => rfl⟩

/-- A fault leaves the engine as it was, also where there is no stack to apply anything to. -/
theorem eq_of_apply_fault {e e' : Engine} {index : Nat} {ins : Option Instruction} {f : Fault}
    (h : e.apply index ins = (e', some (.fault f))) : e' = e := by
  cases hstack : e.stack with
  | some s =>
      have hout := apply_outcome hstack index ins
      rw [h] at hout
      cases hout <;> rfl
  | none =>
      obtain ⟨stop, -, -, happly⟩ := exists_apply_of_no_stack index ins
      cases (happly e hstack).symm.trans h
      rfl

/-! ## Visiting an instruction -/

theorem objection?_instruction {e : Engine} (hphase : e.phase = .inCode)
    (ins : Option Instruction) : e.objection? (.instruction ins) = none := by
  simp [objection?, hphase]

theorem visit_eq_receive {e : Engine} {ev : Event} (h : e.objection? ev = none) :
    e.visit ev = e.receive ev := by
  simp only [visit, h]

theorem visit_method (e : Engine) (m : MethodInfo) : e.visit (.method m) = e.receiveMethod m := rfl

@[simp] theorem applied_result (e : Engine) (index : Nat) (ins : Option Instruction) :
    (e.applied index ins).2.result = none := by
  unfold applied
  split <;> rfl

/-- Telling about an applied instruction moves the sampler and nothing else. -/
theorem applied_engine (e : Engine) (index : Nat) (ins : Option Instruction) :
    (e.applied index ins).1 = { e with sampler := (e.applied index ins).1.sampler } := by
  unfold applied
  split <;> rfl

/-- Without a sticky fault an instruction is counted, applied and told about. -/
theorem receiveInstruction_eq {e : Engine} (hsticky : e.sticky = none)
    (ins : Option Instruction) :
    e.receiveInstruction ins = match e.counted.apply e.count ins with
      | (e', none) => e'.applied e.count ins
      | (e', some (.fault f)) => e'.faulted e.count ins f
      | (e', some (.crash c)) => (e', .crash c) := by
  unfold receiveInstruction
  split
  · next hf =>
    rw [hsticky] at hf
    cases hf
  · rfl

theorem receiveInstruction_accepted {e : Engine} {ins : Option Instruction}
    (hsticky : e.sticky = none) (h : (e.receiveInstruction ins).2.result = none) :
    ∃ e', e.counted.apply e.count ins = (e', none) ∧
      (e.receiveInstruction ins).1 =
        { e' with sampler := (e.receiveInstruction ins).1.sampler } := by
  rw [receiveInstruction_eq hsticky] at h ⊢
  split at h
  · next e' happly => exact ⟨e', happly, applied_engine e' e.count ins⟩
  · cases h
  · cases h

/-- An engine that refuses an instruction has counted it and keeps the fault. -/
theorem receiveInstruction_fault {e : Engine} {ins : Option Instruction} {f : Fault}
    (hsticky : e.sticky = none) (h : (e.receiveInstruction ins).2.result = some (.fault f)) :
    e.counted.apply e.count ins = (e.counted, some (.fault f)) ∧
      (e.receiveInstruction ins).1 = { e with sticky := some f, count := e.count + 1 } := by
  rw [receiveInstruction_eq hsticky] at h ⊢
  split at h
  · simp at h
  · next e' g happly =>
    obtain rfl : g = f := by simpa [faulted] using h
    obtain rfl := eq_of_apply_fault happly
    exact ⟨happly, rfl⟩
  · cases h

theorem applies_of_counted {e : Engine} {s : Operands} {action : Action} {ins : Instruction}
    {c : Change} (happly : action.Applies e.counted s ins c) : action.Applies e s ins c := by
  cases happly with
  | fixed hfixed hcounts hle hrun => exact .fixed hfixed hcounts hle hrun
  | dropWords hn => exact .dropWords hn
  | dupWords hn hm => exact .dupWords hn hm
  | invoke hparse hle => exact .invoke hparse hle
  | invokeDynamic hparse hle => exact .invokeDynamic hparse hle
  | newMultiArray hvalid hpos hdims hle => exact .newMultiArray hvalid hpos hdims hle

section
variable {e : Engine} {s : Operands} {ins : Instruction}

theorem visit_instruction_applies (hphase : e.phase = .inCode) (hsticky : e.sticky = none)
    (hstack : e.stack = some s) (h : (e.visit (.instruction (some ins))).2.result = none) :
    ∃ action c, ins.Performs action ∧ action.Applies e s ins c ∧
      (e.visit (.instruction (some ins))).1 = { e.counted.change s c with
        sampler := (e.visit (.instruction (some ins))).1.sampler } := by
  rw [visit_eq_receive (objection?_instruction hphase _)] at h ⊢
  obtain ⟨e', happly, hengine⟩ := receiveInstruction_accepted hsticky h
  have hout := apply_outcome (e := e.counted) hstack e.count (some ins)
  rw [happly] at hout
  obtain ⟨action, c, hperforms, hchange, rfl⟩ := hout.applies
  exact ⟨action, c, hperforms, applies_of_counted hchange, hengine⟩

theorem visit_instruction_lacks (hphase : e.phase = .inCode) (hsticky : e.sticky = none)
    (hstack : e.stack = some s) {op : Opcode} {index : Nat} {u : Underflow}
    (h : (e.visit (.instruction (some ins))).2.result =
      some (.fault (.underflowAt op index u))) :
    ∃ action, ins.Performs action ∧ action.Lacks s ins u ∧ op = ins.opcode ∧ index = e.count := by
  rw [visit_eq_receive (objection?_instruction hphase _)] at h
  have hout := apply_outcome (e := e.counted) hstack e.count (some ins)
  rw [(receiveInstruction_fault hsticky h).1] at hout
  exact hout.lacks

end

/-- An instruction that an engine refuses leaves no trace in it but the count and the fault:
neither with nor without a visitor behind that accepted the instruction. -/
theorem instruction_fault_leaves_engine (e : Engine) (ins : Option Instruction) (f : Fault)
    (hphase : e.phase = .inCode) (hsticky : e.sticky = none) :
    ((e.visit (.instruction ins)).2.result = some (.fault f) →
      (e.visit (.instruction ins)).1 = { e with sticky := some f, count := e.count + 1 }) ∧
    ∀ (σ : Type) (next : Visitor σ) (s : σ), (next s (.instruction ins)).2.result = none →
      (behind next (e, s) (.instruction ins)).2.result = some (.fault f) →
      (behind next (e, s) (.instruction ins)).1.1 =
        { e with sticky := some f, count := e.count + 1 } := by
  have hadmit := objection?_instruction hphase ins
  refine ⟨?_, ?_⟩
  · intro h
    rw [visit_eq_receive hadmit] at h ⊢
    exact (receiveInstruction_fault hsticky h).2
  · intro σ next s hnext h
    simp only [behind, relay, hadmit, hnext] at h ⊢
    exact (receiveInstruction_fault hsticky h).2

/-- An engine in a body that has stored an int and has one long on its stack. -/
def holdingLong : Engine :=
  { config := { trackLocals := true }
    phase := .inCode
    stack := some [.typed FieldType.long]
    recorded := [(2, .typed FieldType.int)]
    returned := some (.typed FieldType.int)
    sites := 1
    count := 7
    sampler := ⟨0, 0⟩ }

/-- `anewarray` has taken the entry on top when it finds that no element type is named. -/
theorem instruction_fault_leaves_engine_anewarray :
    (holdingLong.visit (.instruction (some (.type .anewarray [])))).2.result =
        some (.fault (.malformed .anewarray .noElementType)) ∧
      (holdingLong.visit (.instruction (some (.type .anewarray [])))).1 =
        { holdingLong with sticky := some (.malformed .anewarray .noElementType), count := 8 } ∧
      (Recorder.visit {} (.instruction (some (.type .anewarray [])))).2.result = none ∧
      (behind Recorder.visit (holdingLong, {})
          (.instruction (some (.type .anewarray [])))).2.result =
        some (.fault (.malformed .anewarray .noElementType)) ∧
      (behind Recorder.visit (holdingLong, {}) (.instruction (some (.type .anewarray [])))).1.1 =
        { holdingLong with sticky := some (.malformed .anewarray .noElementType), count := 8 } := by
  have hleaves := instruction_fault_leaves_engine holdingLong (some (.type .anewarray []))
    (.malformed .anewarray .noElementType) rfl rfl
  have halone : (holdingLong.visit (.instruction (some (.type .anewarray [])))).2.result =
      some (.fault (.malformed .anewarray .noElementType)) := by decide +kernel
  have hfront : (behind Recorder.visit (holdingLong, {})
      (.instruction (some (.type .anewarray [])))).2.result =
      some (.fault (.malformed .anewarray .noElementType)) := by decide +kernel
  exact ⟨halone, hleaves.1 halone, rfl, hfront, hleaves.2 Recorder Recorder.visit {} rfl hfront⟩

end Engine

end OperandStack
