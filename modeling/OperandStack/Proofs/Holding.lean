import OperandStack.Proofs.DescriptorGrammar
import OperandStack.Proofs.Lineage
import OperandStack.Proofs.Transition

/-!
# What an engine holds

An engine keeps values on its stack, for local variable slots, and the one that was returned last.
Only instructions that are applied bring values in. `Engine.Yields` lists the ways in which they
come by a value: from those held before, from their operands, and from what their opcodes stand
for. `Engine.Transition.holds` says that there are no others, so a fact about all values of a run is
shown way by way and then by induction on the events.
-/

namespace OperandStack

namespace Value

@[simp] theorem signature_settle (site : Option Int) (v : Value) :
    (v.settle site).signature = v.signature := by
  unfold settle
  split <;> rfl

@[simp] theorem constant_settle (site : Option Int) (v : Value) :
    (v.settle site).constant = v.constant := by
  unfold settle
  split <;> rfl

@[simp] theorem field_settle (site : Option Int) (v : Value) :
    (v.settle site).field = v.field := by
  unfold settle
  split <;> rfl

@[simp] theorem returnAddress_settle (site : Option Int) (v : Value) :
    (v.settle site).returnAddress = v.returnAddress := by
  unfold settle
  split <;> rfl

theorem isUninitialized_of_settle {site : Option Int} {v : Value}
    (h : (v.settle site).isUninitialized) : v.isUninitialized := by
  unfold settle at h
  split at h
  · cases h
  · exact h

end Value

inductive Engine.Holds (e : Engine) (v : Value) : Prop
  | entry {s : Operands} : e.stack = some s → v ∈ s → Holds e v
  | slot {n : Int} : e.recorded.get? n = some v → Holds e v
  | returned : e.returned = some v → Holds e v

/-! ## Constants -/

/-- The type of a constant; of the null reference none is known. -/
def Constant.signature : Constant → Text
  | .null => []
  | .int _ => FieldType.int
  | .long _ => FieldType.long
  | .float _ => FieldType.float
  | .double _ => FieldType.double
  | .string _ => FieldType.string

namespace Opcode

def getstatic : Opcode := ⟨0xB2⟩
def getfield : Opcode := ⟨0xB4⟩

/-- The constants that opcodes stand for, from opcode 0x01 on. -/
def constants : List Constant :=
  [.null, .int (-1), .int 0, .int 1, .int 2, .int 3, .int 4, .int 5, .long 0, .long 1, .float 0,
    .float 0x3F800000, .float 0x40000000, .double 0, .double 0x3FF0000000000000]

def constant? (op : Opcode) : Option Constant :=
  match op.code.toNat with
  | 0 => none
  | n + 1 => constants[n]?

end Opcode

/-- The constant that an instruction pushes: its operand, or the one that its opcode stands for. -/
def Instruction.constant? (ins : Instruction) : Option Constant :=
  match ins with
  | .int op n => if op = .bipush || op = .sipush then some (.int (Int32.ofInt n)) else none
  | .ldc _ literal => literal.value.constant
  | _ => ins.opcode.constant?

/-! ## Ways to come by a value -/

namespace Engine

/-- The types that an instruction gives to values of which nothing else is known. -/
inductive Gives (e : Engine) : Instruction → Text → Prop
  /-- Fixed by the opcode, or checked among the operands. -/
  | sound {ins : Instruction} {sig : Text} :
      sig = [] ∨ FieldType.WellFormed sig → Gives e ins sig
  | parameter {ins : Instruction} {layout : LocalLayout} {p : LocalSlot} :
      e.locals = some layout → p ∈ layout.slots → Gives e ins p.signature
  | element {ins : Instruction} {v : Value} {sig : Text} :
      e.Holds v → FieldType.element? v.signature = some sig → Gives e ins sig
  | array {name : Text} :
      name ≠ [] → Gives e (.type .anewarray name) (FieldType.arrayOf (FieldType.ofClass name))

/-- The values that an engine can hold once an instruction is applied. -/
inductive Yields (e : Engine) : Instruction → Value → Prop
  /-- Held before, and perhaps settled by now. -/
  | kept {ins : Instruction} {v : Value} {site : Option Int} :
      e.Holds v → Yields e ins (v.settle site)
  | cast {name : Text} {v : Value} :
      e.Holds v → name ≠ [] →
      Yields e (.type .checkcast name) (v.withSignature (FieldType.ofClass name))
  | typed {ins : Instruction} {sig : Text} : e.Gives ins sig → Yields e ins (.typed sig)
  | constant {ins : Instruction} {c : Constant} :
      ins.constant? = some c → Yields e ins (.const c.signature c)
  | sum {slot inc : Int} {v : Value} {c : Int32} :
      e.recorded.get? slot = some v → v.constant = some (.int c) →
      Yields e (.iinc slot inc) (.const FieldType.int (.int (c + Int32.ofInt inc)))
  | field {op : Opcode} {owner name desc : Text} :
      op = .getstatic ∨ op = .getfield → FieldType.validate desc = .ok () →
      Yields e (.field op owner name desc) (.ofField ⟨owner, name, desc⟩)
  | address {ins : Instruction} : Yields e ins .address
  | fresh {name : Text} {site : Int} :
      name ≠ [] →
      Yields e (.type .new name) { signature := FieldType.ofClass name, site }

theorem Yields.copy {e : Engine} {v : Value} (h : e.Holds v) (ins : Instruction) :
    e.Yields ins v := by
  have hyields : e.Yields ins (v.settle none) := .kept h
  rwa [Value.settle_none] at hyields

end Engine

/-! ## Operations -/

namespace Action

def opcodes? : Action → Option (List Opcode)
  | .pushNarrow _ => some [.bipush, .sipush]
  | .readField => some [.getstatic, .getfield]
  | .allocate => some [.new]
  | .newReferenceArray => some [.anewarray]
  | .cast => some [.checkcast]
  | _ => none

/-- The type that an operation has for its results by itself. -/
def kind? : Action → Option Text
  | .load kind _ => some kind
  | .loadElement kind => some kind
  | .compute kind => some kind
  | _ => none

def pushed? : Action → Option Value
  | .push v => some v
  | _ => none

end Action

namespace Operation

theorem mem_opcodes? : ∀ p ∈ all.zipIdx, ∀ ops ∈ p.1.action.opcodes?,
    (⟨.ofNat p.2⟩ : Opcode) ∈ ops := by
  decide +kernel

theorem kind?_sound : ∀ o ∈ all, ∀ kind ∈ o.action.kind?,
    kind = [] ∨ FieldType.WellFormed kind := by
  decide +kernel

theorem pushed?_eq_const : ∀ p ∈ all.zipIdx, ∀ v ∈ p.1.action.pushed?, p.1.form = .insn ∧
    ∃ c ∈ Opcode.constant? ⟨.ofNat p.2⟩, v = .const c.signature c := by
  decide +kernel

end Operation

namespace Instruction

variable {ins : Instruction} {action : Action}

theorem Performs.mem_opcodes (h : ins.Performs action) {ops : List Opcode}
    (hops : action.opcodes? = some ops) : ins.opcode ∈ ops := by
  obtain ⟨o, hop, -, rfl⟩ := h
  have hmem := Operation.mem_opcodes? _ (List.mk_mem_zipIdx_iff_getElem?.2 hop) ops hops
  rwa [UInt8.ofNat_toNat] at hmem

theorem Performs.kind_sound (h : ins.Performs action) {kind : Text}
    (hkind : action.kind? = some kind) : kind = [] ∨ FieldType.WellFormed kind := by
  obtain ⟨o, hop, -, rfl⟩ := h
  exact Operation.kind?_sound o (List.mem_of_getElem? hop) kind hkind

theorem Performs.constant?_of_push {v : Value} (h : ins.Performs (.push v)) :
    ∃ c, ins.constant? = some c ∧ v = .const c.signature c := by
  obtain ⟨o, hop, hform, haction⟩ := h
  obtain ⟨hinsn, c, hc, hv⟩ := Operation.pushed?_eq_const _
    (List.mk_mem_zipIdx_iff_getElem?.2 hop) v (by rw [haction]; rfl)
  rw [UInt8.ofNat_toNat] at hc
  refine ⟨c, ?_, hv⟩
  -- Instructions that carry a number or a literal have other forms.
  cases ins with
  | int => cases hform.trans hinsn
  | ldc => cases hform.trans hinsn
  | _ => exact hc

end Instruction

theorem Literal.value_cases (literal : Literal) :
    literal.value = .typed [] ∨
      ∃ c, literal.value.constant = some c ∧ literal.value = .const c.signature c := by
  cases literal with
  | int v => exact .inr ⟨.int v, rfl, rfl⟩
  | long v => exact .inr ⟨.long v, rfl, rfl⟩
  | float bits => exact .inr ⟨.float bits, rfl, rfl⟩
  | double bits => exact .inr ⟨.double bits, rfl, rfl⟩
  | string t => exact .inr ⟨.string t, rfl, rfl⟩
  | _ => exact .inl rfl

theorem elementKind_cases (kind array : Text) :
    elementKind kind array = kind ∨
      FieldType.element? array = some (elementKind kind array) := by
  unfold elementKind
  split
  · next element helement =>
    split
    · exact .inr helement
    · split
      · exact .inr helement
      · exact .inl rfl
  · exact .inl rfl

theorem primitiveArrays_sound :
    ∀ p ∈ primitiveArrays, FieldType.WellFormed (FieldType.arrayOf p.2) := by
  decide +kernel

def Update.values (u : Update) : List Value :=
  u.push ++ ((u.record.map (·.2)).toList ++ u.returned.toList)

namespace Action

open Engine (Yields)

variable {e : Engine} {s args : Operands} {ins : Instruction} {action : Action} {u : Update}

theorem values_of_push {push : Operands} : Update.values { push } = push := by
  simp [Update.values]

theorem loaded_yields {kind : Text} {implied : Option Nat}
    (hperforms : ins.Performs (.load kind implied)) (slot : Int) :
    e.Yields ins (e.loaded slot kind) := by
  unfold Engine.loaded
  split
  · next hrecorded => exact .copy (.slot hrecorded) ins
  · split
    · next p hp =>
      obtain ⟨layout, hlayout, hlookup⟩ := Option.bind_eq_some_iff.1 hp
      exact .typed (.parameter hlayout (List.mem_of_find?_eq_some hlookup))
    · exact .typed (.sound (hperforms.kind_sound rfl))

theorem incremented_yields {slot inc : Int} {v : Value} (hv : e.recorded.get? slot = some v) :
    e.Yields (.iinc slot inc) (Engine.incremented v inc) := by
  have hint : FieldType.WellFormed FieldType.int := by decide +kernel
  unfold Engine.incremented
  split
  · next hc => exact .sum hv hc
  · exact .typed (.sound (.inr hint))

theorem run_pushNarrow_yields {range : Narrow} (hperforms : ins.Performs (.pushNarrow range))
    (h : (Action.pushNarrow range).run e ins args = .ok u) : ∀ v ∈ u.values, e.Yields ins v := by
  simp only [Action.run] at h
  split at h
  · next op n =>
    have hop : op = .bipush ∨ op = .sipush := by
      simpa [Instruction.opcode] using hperforms.mem_opcodes rfl
    have hconst : (Instruction.int op n).constant? = some (.int (Int32.ofInt n)) := by
      simpa [Instruction.constant?, ← or_iff_not_imp_left] using hop
    cases range <;> dsimp only at h <;> split at h <;> cases h
    all_goals
      rw [values_of_push, List.forall_mem_singleton]
      exact .constant hconst
  · cases h

theorem run_pushLiteral_yields (h : Action.pushLiteral.run e ins args = .ok u) :
    ∀ v ∈ u.values, e.Yields ins v := by
  simp only [Action.run] at h
  split at h
  · next op literal =>
    split at h
    · cases h
      rw [values_of_push, List.forall_mem_singleton]
      rcases literal.value_cases with hvalue | ⟨c, hc, hvalue⟩
      · rw [hvalue]
        exact .typed (.sound (.inl rfl))
      · rw [hvalue]
        exact .constant hc
    · cases h
  · cases h

theorem run_increment_yields (h : Action.increment.run e ins args = .ok u) :
    ∀ v ∈ u.values, e.Yields ins v := by
  simp only [Action.run] at h
  split at h
  · split at h
    · cases h
    · split at h
      · cases h
      · split at h
        · next hv =>
          cases h
          simpa [Update.values] using incremented_yields hv
        · cases h
          simp [Update.values]
  · cases h

theorem run_loadElement_yields {kind : Text} (hperforms : ins.Performs (.loadElement kind))
    (hargs : ∀ v ∈ args, e.Holds v) (h : (Action.loadElement kind).run e ins args = .ok u) :
    ∀ v ∈ u.values, e.Yields ins v := by
  simp only [Action.run] at h
  split at h
  · next array =>
    cases h
    rw [values_of_push, List.forall_mem_singleton]
    rcases elementKind_cases kind array.signature with hkind | helement
    · rw [hkind]
      exact .typed (.sound (hperforms.kind_sound rfl))
    · exact .typed (.element (hargs array (by simp)) helement)
  · cases h

theorem run_readField_yields (hperforms : ins.Performs .readField)
    (h : Action.readField.run e ins args = .ok u) : ∀ v ∈ u.values, e.Yields ins v := by
  simp only [Action.run] at h
  split at h
  · next op owner name desc =>
    have hop : op = .getstatic ∨ op = .getfield := by
      simpa [Instruction.opcode] using hperforms.mem_opcodes rfl
    split at h
    · next hvalid =>
      cases h
      rw [values_of_push, List.forall_mem_singleton]
      exact .field hop hvalid
    · cases h
  · cases h

theorem run_allocate_yields (hperforms : ins.Performs .allocate)
    (h : Action.allocate.run e ins args = .ok u) : ∀ v ∈ u.values, e.Yields ins v := by
  simp only [Action.run] at h
  split at h
  · next op name =>
    obtain rfl : op = .new := List.mem_singleton.1 (hperforms.mem_opcodes rfl)
    split at h
    · cases h
    · next hname =>
      split at h
      · next v hv =>
        cases h
        simp only [Value.uninitialized?] at hv
        split at hv <;> cases hv
        have hname : name ≠ [] := by simpa using hname
        simpa [Update.values] using Yields.fresh hname
      · cases h
  · cases h

theorem run_newPrimitiveArray_yields (h : Action.newPrimitiveArray.run e ins args = .ok u) :
    ∀ v ∈ u.values, e.Yields ins v := by
  simp only [Action.run] at h
  split at h
  · next op code =>
    split at h
    · next element hlookup =>
      cases h
      obtain ⟨before, after, hsplit, -⟩ := List.lookup_eq_some_iff.1 hlookup
      have hmem : (code, element) ∈ primitiveArrays := by simp [hsplit]
      rw [values_of_push, List.forall_mem_singleton]
      exact .typed (.sound (.inr (primitiveArrays_sound _ hmem)))
    · cases h
  · cases h

theorem run_newReferenceArray_yields (hperforms : ins.Performs .newReferenceArray)
    (h : Action.newReferenceArray.run e ins args = .ok u) : ∀ v ∈ u.values, e.Yields ins v := by
  simp only [Action.run] at h
  split at h
  · next op name =>
    obtain rfl : op = .anewarray := List.mem_singleton.1 (hperforms.mem_opcodes rfl)
    split at h
    · cases h
    · next hname =>
      cases h
      rw [values_of_push, List.forall_mem_singleton]
      exact .typed (.array (by simpa using hname))
  · cases h

theorem run_cast_yields (hperforms : ins.Performs .cast) (hargs : ∀ v ∈ args, e.Holds v)
    (h : Action.cast.run e ins args = .ok u) : ∀ v ∈ u.values, e.Yields ins v := by
  simp only [Action.run] at h
  split at h
  · next op name =>
    obtain rfl : op = .checkcast := List.mem_singleton.1 (hperforms.mem_opcodes rfl)
    split at h
    · cases h
    · next hname =>
      split at h
      · next v =>
        cases h
        rw [values_of_push, List.forall_mem_singleton]
        exact .cast (hargs v (by simp)) (by simpa using hname)
      · cases h
  · cases h

theorem run_yields (hperforms : ins.Performs action) (hargs : ∀ v ∈ args, e.Holds v)
    (h : action.run e ins args = .ok u) : ∀ v ∈ u.values, e.Yields ins v := by
  have hcopy : ∀ v ∈ args, e.Yields ins v := fun v hv => .copy (hargs v hv) ins
  cases action
  case push v =>
    cases h
    obtain ⟨c, hc, rfl⟩ := hperforms.constant?_of_push
    rw [values_of_push, List.forall_mem_singleton]
    exact .constant hc
  case pushNarrow => exact run_pushNarrow_yields hperforms h
  case pushLiteral => exact run_pushLiteral_yields h
  case load kind implied =>
    simp only [Action.run] at h
    split at h <;> cases h
    rw [values_of_push, List.forall_mem_singleton]
    exact loaded_yields hperforms _
  case store implied =>
    simp only [Action.run] at h
    split at h
    · split at h <;> cases h
      simpa [Update.values] using hcopy
    · cases h
  case increment => exact run_increment_yields h
  case loadElement => exact run_loadElement_yields hperforms hargs h
  case compute kind =>
    cases h
    rw [values_of_push, List.forall_mem_singleton]
    exact .typed (.sound (hperforms.kind_sound rfl))
  case dup =>
    simp only [Action.run] at h
    split at h <;> cases h
    simpa [Update.values] using hcopy
  case dupBelow =>
    simp only [Action.run] at h
    split at h <;> cases h
    simp_all [Update.values]
  case swap =>
    simp only [Action.run] at h
    split at h <;> cases h
    simpa [Update.values, and_comm] using hcopy
  case callSubroutine =>
    simp only [Action.run] at h
    split at h <;> cases h
    rw [values_of_push, List.forall_mem_singleton]
    exact .address
  case returnValue =>
    simp only [Action.run] at h
    split at h <;> cases h
    simpa [Update.values] using hcopy
  case readField => exact run_readField_yields hperforms h
  case allocate => exact run_allocate_yields hperforms h
  case newPrimitiveArray => exact run_newPrimitiveArray_yields h
  case newReferenceArray => exact run_newReferenceArray_yields hperforms h
  case cast => exact run_cast_yields hperforms hargs h
  -- All others bring no value in.
  all_goals
    cases h
    simp [Update.values]

theorem callResult_yields {desc : Text} {m : MethodDescriptor}
    (hparse : MethodDescriptor.parse desc = .ok m) (ins : Instruction) :
    ∀ v ∈ Action.callResult m, e.Yields ins v := by
  have hm := (MethodDescriptor.parse_eq_ok_iff.1 hparse).1
  intro v hv
  unfold Action.callResult at hv
  split at hv
  · cases hv
  · next hvoid =>
    obtain rfl := List.mem_singleton.1 hv
    have hresult : FieldType.WellFormed m.result := by
      refine hm.result.resolve_right fun heq => hvoid ?_
      simp [MethodDescriptor.isVoid, heq, FieldType.void]
    exact .typed (.sound (.inr hresult))

theorem Applies.yields {c : Change} (happly : action.Applies e s ins c)
    (hperforms : ins.Performs action) (hstack : e.stack = some s) :
    ∀ v ∈ c.update.values, e.Yields ins v := by
  have hentry : ∀ v ∈ s, e.Holds v := fun v hv => .entry hstack hv
  cases happly with
  | fixed _ _ _ hrun =>
      exact run_yields hperforms (fun v hv => hentry v (List.mem_of_mem_take hv)) hrun
  | dropWords => simp [Update.values]
  | dupWords =>
      rw [values_of_push]
      intro v hv
      refine .copy (hentry v ?_) ins
      simp only [List.mem_append] at hv
      rcases hv with hv | hv | hv
      · exact List.mem_of_mem_take hv
      · exact List.mem_of_mem_drop (List.mem_of_mem_take hv)
      · exact List.mem_of_mem_take hv
  | invoke hparse =>
      rw [values_of_push]
      exact callResult_yields hparse _
  | invokeDynamic hparse =>
      rw [values_of_push]
      exact callResult_yields hparse _
  | newMultiArray hvalid =>
      rw [values_of_push, List.forall_mem_singleton]
      exact .typed (.sound (.inr (FieldType.validate_eq_ok_iff.1 hvalid)))

end Action

/-! ## Events -/

namespace Engine

section
variable {e e' : Engine} {s : Operands} {v : Value} {ev : Event}

theorem holds_advanced {c : Change} (hstack : e.stack = some s) (h : (e.advanced s c).Holds v) :
    (∃ w site, e.Holds w ∧ v = w.settle site) ∨ v ∈ c.update.values := by
  have hsettled : ∀ {n : Int}, (e.recorded.settle c.settles).get? n = some v →
      ∃ w site, e.Holds w ∧ v = w.settle site := by
    intro n hn
    rw [Recorded.get?_settle] at hn
    obtain ⟨w, hw, rfl⟩ := Option.map_eq_some_iff.1 hn
    exact ⟨w, _, .slot hw, rfl⟩
  cases h with
  | entry hs hv =>
      rw [advanced_stack] at hs
      cases hs
      rcases List.mem_append.1 hv with hpush | hrest
      · exact .inr (List.mem_append_left _ hpush)
      · obtain ⟨w, hw, rfl⟩ := List.mem_map.1 hrest
        exact .inl ⟨w, _, .entry hstack (List.mem_of_mem_drop hw), rfl⟩
  | @slot n hn =>
      rw [advanced_recorded] at hn
      split at hn
      · next slot w hrecord =>
        split at hn
        · rw [Recorded.get?_store_eq_some_iff] at hn
          rcases hn with ⟨-, rfl⟩ | ⟨-, -, hn, -⟩
          · exact .inr (by simp [Update.values, hrecord])
          · exact .inl (hsettled hn)
        · exact .inl (hsettled hn)
      · exact .inl (hsettled hn)
  | returned hreturned =>
      have hcases : c.update.returned = some v ∨
          c.update.returned = none ∧ e.returned = some v := by
        simpa [advanced, change, update, counted] using hreturned
      rcases hcases with hnew | ⟨-, hold⟩
      · exact .inr (by simp [Update.values, hnew])
      · exact .inl ⟨v, none, .returned hold, (v.settle_none).symm⟩

theorem Holds.of_less (h : e'.Holds v)
    (hstack : e'.stack = none ∨ e'.stack = some [] ∨ e'.stack = e.stack)
    (hrecorded : e'.recorded = [] ∨ e'.recorded = e.recorded)
    (hreturned : e'.returned = e.returned) : e.Holds v := by
  cases h with
  | entry hs hv =>
      rcases hstack with hnone | hempty | hsame
      · cases hs.symm.trans hnone
      · cases hs.symm.trans hempty
        cases hv
      · exact .entry (hsame ▸ hs) hv
  | slot hn =>
      rcases hrecorded with hempty | hsame
      · rw [hempty, Recorded.get?_nil] at hn
        cases hn
      · exact .slot (hsame ▸ hn)
  | returned hr => exact .returned (hreturned ▸ hr)

theorem not_holds_of_empty (hstack : e.stack = none) (hrecorded : e.recorded = [])
    (hreturned : e.returned = none) : ¬ e.Holds v := by
  intro h
  cases h with
  | entry hs => cases hs.symm.trans hstack
  | slot hn =>
      rw [hrecorded, Recorded.get?_nil] at hn
      cases hn
  | returned hr => cases hr.symm.trans hreturned

/-- What an engine holds after an event, it held before or has from an instruction. -/
theorem Transition.holds {result : Option Stop} (h : e.Transition ev e' result) (hv : e'.Holds v) :
    e.Holds v ∨ ∃ ins, ev = .instruction (some ins) ∧ result = none ∧ e.Yields ins v := by
  cases h with
  | refused => exact .inl hv
  | missing => exact .inl hv
  | declared => exact absurd hv (not_holds_of_empty rfl rfl rfl)
  | misdeclared => exact absurd hv (not_holds_of_empty rfl rfl rfl)
  | named => exact .inl (hv.of_less (.inr (.inr rfl)) (.inr rfl) rfl)
  | surplus => exact .inl (hv.of_less (.inr (.inr rfl)) (.inr rfl) rfl)
  | unplaced => exact .inl (hv.of_less (.inr (.inr rfl)) (.inr rfl) rfl)
  | code => exact .inl (hv.of_less (.inr (.inl rfl)) (.inl rfl) rfl)
  | label => exact .inl (hv.of_less (.inr (.inr rfl)) (.inl rfl) rfl)
  | @applied s ins action c hready hperforms happly =>
      refine .inr ⟨ins, rfl, rfl, ?_⟩
      rcases holds_advanced hready.stack hv with ⟨w, site, hw, rfl⟩ | hmem
      · exact .kept hw
      · exact happly.yields hperforms hready.stack v hmem
  | faulted => exact .inl (hv.of_less (.inr (.inr rfl)) (.inr rfl) rfl)
  | crashed =>
      -- Entries may have been taken off the stack already.
      cases hv with
      | entry hs hmem =>
          obtain ⟨s, hstack, rfl⟩ := Option.map_eq_some_iff.1 hs
          exact .inl (.entry hstack (List.mem_of_mem_drop hmem))
      | slot hn => exact .inl (.slot hn)
      | returned hr => exact .inl (.returned hr)
  | finished hstack =>
      refine .inl (hv.of_less ?_ (.inr rfl) rfl)
      rcases hstack with rfl | rfl
      · exact .inl rfl
      · exact .inr (.inr rfl)

theorem not_holds_receiveMethod (e : Engine) (m : MethodInfo) (v : Value) :
    ¬ (e.receiveMethod m).1.Holds v := by
  unfold receiveMethod declare
  split <;> exact not_holds_of_empty rfl rfl rfl

theorem not_holds_new (config : Config) (v : Value) : ¬ (Engine.new config).Holds v :=
  not_holds_of_empty rfl rfl rfl

end

end Engine

end OperandStack
