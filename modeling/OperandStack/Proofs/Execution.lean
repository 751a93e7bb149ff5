import OperandStack.Engine.Visit

/-!
# What operations do, as values

Operations work on an engine in place. Here the same is told by a value: `Operation.change` reads
the engine, an instruction and the stack and gives the change that the operation makes of them,
or why it makes none. `Operation.perform_run` says that work in place carries this change out, and
that after a fault the engine is what it was before: what the operation has taken off the stack
is back, and nothing else has been touched by then.
-/

namespace OperandStack

namespace Operands

/-- Words are reached by counting their entries. -/
theorem takeWords?_eq_map_countWords? (n : Nat) (s : Operands) :
    takeWords? n s = (s.countWords? 0 n).map fun k => s.take k := by
  simp only [countWords?, List.drop_zero]
  induction s generalizing n with
  | nil => cases n <;> simp [takeWords?, countWords?.go]
  | cons v s ih =>
      cases n with
      | zero => simp [takeWords?, countWords?.go]
      | succ n =>
          rw [takeWords?, countWords?.go, ih]
          simp [Option.map_map, Function.comp_def]

theorem countWords?_drop (s : Operands) (skip n : Nat) :
    countWords? (s.drop skip) 0 n = s.countWords? skip n := rfl

theorem le_length_drop_of_countWords? {s : Operands} {skip n k : Nat}
    (h : s.countWords? skip n = some k) : k ≤ (s.drop skip).length := by
  have go : ∀ (t : Operands) (n k : Nat), countWords?.go n t = some k → k ≤ t.length := by
    intro t
    induction t with
    | nil =>
        intro n k h
        cases n <;> simp [countWords?.go] at h
        omega
    | cons v t ih =>
        intro n k h
        cases n with
        | zero => simp [countWords?.go] at h; omega
        | succ n =>
            obtain ⟨j, hj, rfl⟩ := Option.map_eq_some_iff.1 h
            have hle := ih _ _ hj
            simp only [List.length_cons]
            omega
  exact go _ _ _ h

theorem add_le_of_countWords? {s : Operands} {skip n k : Nat} (hskip : skip ≤ s.length)
    (h : s.countWords? skip n = some k) : skip + k ≤ s.length := by
  have hle := le_length_drop_of_countWords? h
  rw [List.length_drop] at hle
  omega

end Operands

/-! ## Changes -/

/-- The value once the constructor of an allocation has run, if one has. -/
def Value.settle (site : Option Int) (v : Value) : Value :=
  if site = some v.site then v.initialized else v

@[simp] theorem Value.settle_none (v : Value) : v.settle none = v := rfl

theorem Value.settle_some (site : Int) (v : Value) :
    v.settle (some site) = if v.site = site then v.initialized else v := by
  simp [settle, eq_comm]

@[simp] theorem Value.category_settle (site : Option Int) (v : Value) :
    (v.settle site).category = v.category := by
  unfold settle
  split <;> rfl

def Operands.settle (site : Option Int) (s : Operands) : Operands := s.map (Value.settle site)

@[simp] theorem Operands.settle_none (s : Operands) : s.settle none = s :=
  List.map_id'' Value.settle_none s

def Recorded.settle (site : Option Int) (r : Recorded) : Recorded :=
  r.map fun p : Int × Value => (p.1, p.2.settle site)

@[simp] theorem Recorded.settle_none (r : Recorded) : r.settle none = r :=
  List.map_id'' (fun _ => rfl) r

/-- What an operation changes besides taking its operands. -/
structure Update where
  /-- Entries to push, the new top first. -/
  push : Operands := []
  /-- A value stored in a local variable slot. -/
  record : Option (Int × Value) := none
  returned : Option Value := none
  /-- The number of a fresh allocation. -/
  site : Option Int := none

/-- What an applied instruction does: entries it takes, the allocation whose references it
settles, and the update of the rest. -/
structure Change where
  taken : Nat
  settles : Option Int := none
  update : Update := {}

namespace Engine

/-- Carries an update out, on the stack that is left after the operands were taken. -/
def update (e : Engine) (rest : Operands) (u : Update) : Engine :=
  { e with
    stack := some (u.push ++ rest)
    recorded := match u.record with
      | some (slot, v) => if e.config.trackLocals then e.recorded.store slot v else e.recorded
      | none => e.recorded
    returned := u.returned <|> e.returned
    sites := u.site.getD e.sites }

/-- Carries a change out on an engine with the given stack. -/
def change (e : Engine) (s : Operands) (c : Change) : Engine :=
  let settled := { e with recorded := e.recorded.settle c.settles }
  settled.update (Operands.settle c.settles (s.drop c.taken)) c.update

theorem change_of_settles_none (e : Engine) (s : Operands) (n : Nat) (u : Update) :
    e.change s { taken := n, update := u } = e.update (s.drop n) u := by
  simp only [change, Recorded.settle_none, Operands.settle_none]

end Engine

namespace Action

def isDynamic : Action → Bool
  | .dropWords => true
  | .dupWords _ _ => true
  | .invoke => true
  | .invokeDynamic => true
  | .newMultiArray => true
  | _ => false

/-- The update of an operation with fixed counts, given its operands, top first. -/
def run (action : Action) (e : Engine) (ins : Instruction) (args : Operands) :
    Except Stop Update :=
  let malformed (op : Opcode) (why : Malformation) : Except Stop Update :=
    .error (.fault (.malformed op why))
  match action with
  | .push v => .ok { push := [v] }
  | .pushNarrow range =>
    match ins with
    | .int op n =>
      match range with
      | .byte =>
        if isByte n then .ok { push := [.const FieldType.int (.int (Int32.ofInt n))] }
        else malformed op (.byteRange n)
      | .short =>
        if isShort n then .ok { push := [.const FieldType.int (.int (Int32.ofInt n))] }
        else malformed op (.shortRange n)
    | _ => .error (.crash .foreignOperand)
  | .pushLiteral =>
    match ins with
    | .ldc _ literal =>
      let v := literal.value
      if (v.category == 2) == (ins.opcode == .ldc2W) then .ok { push := [v] }
      else malformed ins.opcode (.category literal)
    | _ => .error (.crash .foreignOperand)
  | .load kind implied =>
    match slotOf ins implied with
    | .ok slot => .ok { push := [e.loaded slot kind] }
    | .error why => .error why
  | .store implied =>
    match slotOf ins implied with
    | .ok slot =>
      match args with
      | [v] => .ok { record := some (slot, v) }
      | _ => .error (.crash .operandCount)
    | .error why => .error why
  | .increment =>
    match ins with
    | .iinc slot inc =>
      if !(0 ≤ slot && slot ≤ maxSlot) then malformed .iinc (.slotRange slot)
      else if !isShort inc then malformed .iinc (.incrementRange inc)
      else match e.recorded.get? slot with
        | some v => .ok { record := some (slot, Engine.incremented v inc) }
        | none => .ok {}
    | _ => .error (.crash .foreignOperand)
  | .loadElement kind =>
    match args with
    | [_, array] => .ok { push := [.typed (elementKind kind array.signature)] }
    | _ => .error (.crash .operandCount)
  | .compute kind => .ok { push := [.typed kind] }
  | .dup =>
    match args with
    | [v] => .ok { push := [v, v] }
    | _ => .error (.crash .operandCount)
  | .dupBelow =>
    match args with
    | [v, w] => .ok { push := [v, w, v] }
    | _ => .error (.crash .operandCount)
  | .swap =>
    match args with
    | [v, w] => .ok { push := [w, v] }
    | _ => .error (.crash .operandCount)
  | .callSubroutine =>
    match ins with
    | .jump _ (some _) => .ok { push := [.address] }
    | .jump op none => malformed op .noTarget
    | _ => .error (.crash .foreignOperand)
  | .returnValue =>
    match args with
    | [v] => .ok { returned := some v }
    | _ => .error (.crash .operandCount)
  | .readField =>
    match ins with
    | .field op owner name desc =>
      match FieldType.validate desc with
      | .ok () => .ok { push := [.ofField ⟨owner, name, desc⟩] }
      | .error err => .error (.fault (.member op owner name err))
    | _ => .error (.crash .foreignOperand)
  | .allocate =>
    match ins with
    | .type op name =>
      if name.isEmpty then malformed op .noClass
      else
        let site := word64 (e.sites + 1)
        match Value.uninitialized? (FieldType.ofClass name) site with
        | some v => .ok { push := [v], site := some site }
        | none => .error (.crash (.site site))
    | _ => .error (.crash .foreignOperand)
  | .newPrimitiveArray =>
    match ins with
    | .int op code =>
      match primitiveArrays.lookup code with
      | some element => .ok { push := [.typed (FieldType.arrayOf element)] }
      | none => malformed op (.arrayType code)
    | _ => .error (.crash .foreignOperand)
  | .newReferenceArray =>
    match ins with
    | .type op name =>
      if name.isEmpty then malformed op .noElementType
      else .ok { push := [.typed (FieldType.arrayOf (FieldType.ofClass name))] }
    | _ => .error (.crash .foreignOperand)
  | .cast =>
    match ins with
    | .type op name =>
      if name.isEmpty then malformed op .noTargetType
      else match args with
        | [v] => .ok { push := [v.withSignature (FieldType.ofClass name)] }
        | _ => .error (.crash .operandCount)
    | _ => .error (.crash .foreignOperand)
  | _ => .ok {}

theorem run_congr {e e' : Engine} (hrecorded : e'.recorded = e.recorded)
    (hlocals : e'.locals = e.locals) (hsites : e'.sites = e.sites) (action : Action)
    (ins : Instruction) (args : Operands) : action.run e' ins args = action.run e ins args := by
  cases action <;> simp only [run, Engine.loaded, hrecorded, hlocals, hsites]

/-- Entries a call takes: its arguments and, unless it is static, a receiver. -/
def callArity (op : Opcode) (m : MethodDescriptor) : Nat :=
  m.params.length + (if op = .invokestatic then 0 else 1)

def callResult (m : MethodDescriptor) : Operands := if m.isVoid then [] else [.typed m.result]

/-- The allocation that a call settles: that of a fresh receiver of a constructor. -/
def settled? (op : Opcode) (name : Text) : Option Value → Option Int
  | some receiver =>
      if op = .invokespecial && name = Engine.constructorName && receiver.isUninitialized then
        some receiver.site
      else none
  | none => none

/-- A constructor call has a receiver among the entries it takes. -/
theorem settled?_take (op : Opcode) (name : Text) (m : MethodDescriptor) (s : Operands) :
    settled? op name (s.take (callArity op m))[m.params.length]? =
      settled? op name s[m.params.length]? := by
  by_cases hop : op = .invokespecial
  · have hlt : m.params.length < callArity op m := by
      rw [callArity, if_neg (by rw [hop]; decide)]
      exact Nat.lt_succ_self _
    rw [List.getElem?_take_of_lt hlt]
  · have hnone (receiver : Option Value) : settled? op name receiver = none := by
      cases receiver <;> simp [settled?, hop]
    rw [hnone, hnone]

end Action

/-- A change of a stack that has the entries it takes. -/
def Change.checked (c : Change) (s : Operands) : Except Stop Change :=
  if c.taken ≤ s.length then .ok c else .error (.fault (.underflow ⟨s.length, c.taken⟩))

namespace Action

def call (op : Opcode) (owner name : Text) (looked : Except DescriptorError MethodDescriptor)
    (s : Operands) : Except Stop Change :=
  match looked with
  | .error err => .error (.fault (.member op owner name err))
  | .ok m =>
    Change.checked
      { taken := callArity op m
        settles := settled? op name s[m.params.length]?
        update := { push := callResult m } } s

def callSite (name : Text) (looked : Except DescriptorError MethodDescriptor) (s : Operands) :
    Except Stop Change :=
  match looked with
  | .error err => .error (.fault (.callSite name err))
  | .ok m => Change.checked { taken := m.params.length, update := { push := callResult m } } s

def changeOf (action : Action) (ins : Instruction) (s : Operands) : Except Stop Change :=
  let shortfall : Except Stop Change := .error (.fault (.underflow s.shortfall))
  match action, ins with
  | .dropWords, _ =>
    match s.countWords? 0 2 with
    | some n => .ok { taken := n }
    | none => shortfall
  | .dupWords top under, _ =>
    match s.countWords? 0 top with
    | some n =>
      match s.countWords? n under with
      | some m =>
        .ok { taken := n + m, update := { push := s.take n ++ ((s.drop n).take m ++ s.take n) } }
      | none => shortfall
    | none => shortfall
  | .invoke, .method op owner name desc _ => call op owner name (MethodDescriptor.parse desc) s
  | .invokeDynamic, .invokeDynamic name desc _ => callSite name (MethodDescriptor.parse desc) s
  | .newMultiArray, .multiNewArray desc dims =>
    match FieldType.validate desc with
    | .error err => .error (.fault (.arrayDescriptor err))
    | .ok () =>
      if dims < 1 || (FieldType.dimensions desc : Int) < dims then
        .error (.fault (.malformed .multianewarray (.dimensions dims desc)))
      else Change.checked { taken := dims.toNat, update := { push := [.typed desc] } } s
  | _, _ => .error (.crash .foreignOperand)

end Action

/-- The change that an operation makes of an engine with the given stack. -/
def Operation.change (o : Operation) (e : Engine) (ins : Instruction) (s : Operands) :
    Except Stop Change :=
  match o.counts with
  | none => o.action.changeOf ins s
  | some (pops, _) =>
    if pops ≤ s.length then
      (o.action.run e ins (s.take pops)).map fun u => { taken := pops, update := u }
    else .error (.fault (.underflow ⟨s.length, pops⟩))

/-- Entries that an operation takes off the stack before it is executed. -/
def Operation.operands (o : Operation) : Nat := (o.counts.map (·.1)).getD 0

/-! ## Work in place -/

namespace Engine

/-- What work on an engine comes to that makes the given change of it, with some entries already
off the stack. -/
def conclude (e : Engine) (s : Operands) (off : Nat) :
    Except Stop Change → EStateM.Result Stop Engine Unit
  | .ok c => .ok () (e.change s c)
  | .error (.fault f) => .error (.fault f) e
  | .error (.crash c) => .error (.crash c) { e with stack := some (s.drop off) }

theorem conclude_push (e : Engine) (s push : Operands) (off n : Nat) :
    e.conclude s off (.ok { taken := n, update := { push } }) =
      .ok () { e with stack := some (push ++ s.drop n) } := by
  rw [conclude, change_of_settles_none]
  rfl

def updated (e : Engine) (rest : Operands) : Except Stop Update → EStateM.Result Stop Engine Unit
  | .ok u => .ok () (e.update rest u)
  | .error (.fault f) => .error (.fault f) e
  | .error (.crash c) => .error (.crash c) { e with stack := some rest }

end Engine

namespace Work

section
variable {α : Type} {e : Engine} {s rest : Operands}

theorem run_get_bind (k : Engine → Work α) : (get >>= k).run e = (k e).run e := rfl

section
variable {β : Type} {w : Work α} {k : α → Work β}

theorem run_bind_of_ok {e' : Engine} {a : α} (h : w.run e = .ok a e') :
    (w >>= k).run e = (k a).run e' := by
  simp only [EStateM.run] at h
  simp only [EStateM.run, bind, EStateM.bind, h]

theorem run_bind_of_error {e' : Engine} {stop : Stop} (h : w.run e = .error stop e') :
    (w >>= k).run e = .error stop e' := by
  simp only [EStateM.run] at h
  simp only [EStateM.run, bind, EStateM.bind, h]

end

section
variable {e' : Engine} {w : Work α} {handle : Stop → Work α}

theorem run_tryCatch_of_ok {a : α} (h : w.run e = .ok a e') :
    (tryCatch w handle).run e = .ok a e' := by
  change w e = _ at h
  change EStateM.tryCatch w handle e = _
  delta EStateM.tryCatch
  rw [h]

/-- What was changed before the stop is not undone. -/
theorem run_tryCatch_of_error {stop : Stop} (h : w.run e = .error stop e') :
    (tryCatch w handle).run e = (handle stop).run e' := by
  change w e = _ at h
  change EStateM.tryCatch w handle e = _
  delta EStateM.tryCatch
  rewrite [h]
  rfl

end

theorem stack_run (hstack : e.stack = some s) : stack.run e = .ok s e := by
  simp only [stack, run_get_bind, hstack]
  rfl

theorem push_run (hstack : e.stack = some s) (v : Value) :
    (push v).run e = .ok () { e with stack := some (v :: s) } := by
  rw [push, run_bind_of_ok (stack_run hstack)]
  rfl

theorem pushAll_run (hstack : e.stack = some s) (vs : Operands) :
    (pushAll vs).run e = .ok () { e with stack := some (vs ++ s) } := by
  rw [pushAll, run_bind_of_ok (stack_run hstack)]
  rfl

theorem require_run (hstack : e.stack = some s) {n : Nat} (h : n ≤ s.length) :
    (require n).run e = .ok () e := by
  rw [require, run_bind_of_ok (stack_run hstack), if_neg (Nat.not_lt.2 h)]
  rfl

theorem require_run_of_lt (hstack : e.stack = some s) {n : Nat} (h : s.length < n) :
    (require n).run e = .error (.fault (.underflow ⟨s.length, n⟩)) e := by
  rw [require, run_bind_of_ok (stack_run hstack), if_pos h]
  rfl

theorem pop_run (hstack : e.stack = some s) {n : Nat} (h : n ≤ s.length) :
    (pop n).run e = .ok (s.take n) { e with stack := some (s.drop n) } := by
  rw [pop, run_bind_of_ok (require_run hstack h), run_bind_of_ok (stack_run hstack)]
  rfl

theorem pop_run_of_lt (hstack : e.stack = some s) {n : Nat} (h : s.length < n) :
    (pop n).run e = .error (.fault (.underflow ⟨s.length, n⟩)) e := by
  rw [pop, run_bind_of_error (require_run_of_lt hstack h)]

theorem drop_run (hstack : e.stack = some s) {n : Nat} (h : n ≤ s.length) :
    (drop n).run e = .ok () { e with stack := some (s.drop n) } := by
  rw [drop, run_bind_of_ok (require_run hstack h), run_bind_of_ok (stack_run hstack)]
  rfl

theorem drop_run_of_lt (hstack : e.stack = some s) {n : Nat} (h : s.length < n) :
    (drop n).run e = .error (.fault (.underflow ⟨s.length, n⟩)) e := by
  rw [drop, run_bind_of_error (require_run_of_lt hstack h)]

theorem entries_run (hstack : e.stack = some s) {skip n k : Nat}
    (h : s.countWords? skip n = some k) : (entries skip n).run e = .ok k e := by
  have hlen : ((s.drop skip).take k).length = k :=
    List.length_take_of_le (Operands.le_length_drop_of_countWords? h)
  rw [entries, run_bind_of_ok (stack_run hstack), Operands.takeWords?_eq_map_countWords?,
    Operands.countWords?_drop, h]
  simp only [Option.map_some, hlen]
  rfl

theorem entries_run_of_none (hstack : e.stack = some s) {skip n : Nat}
    (h : s.countWords? skip n = none) :
    (entries skip n).run e = .error (.fault (.underflow s.shortfall)) e := by
  rw [entries, run_bind_of_ok (stack_run hstack), Operands.takeWords?_eq_map_countWords?,
    Operands.countWords?_drop, h]
  rfl

section
variable (hstack : e.stack = none)
include hstack

theorem stack_run_of_no_stack : stack.run e = .error (.crash .missing) e := by
  simp only [stack, run_get_bind, hstack]
  rfl

theorem require_run_of_no_stack (n : Nat) : (require n).run e = .error (.crash .missing) e := by
  rw [require, run_bind_of_error (stack_run_of_no_stack hstack)]

theorem pop_run_of_no_stack (n : Nat) : (pop n).run e = .error (.crash .missing) e := by
  rw [pop, run_bind_of_error (require_run_of_no_stack hstack n)]

theorem drop_run_of_no_stack (n : Nat) : (drop n).run e = .error (.crash .missing) e := by
  rw [drop, run_bind_of_error (require_run_of_no_stack hstack n)]

theorem entries_run_of_no_stack (skip n : Nat) :
    (entries skip n).run e = .error (.crash .missing) e := by
  rw [entries, run_bind_of_error (stack_run_of_no_stack hstack)]

end

/-- An operation with fixed counts carries its update out, and touches nothing if it fails. -/
theorem execute_run {action : Action} (hfixed : action.isDynamic = false)
    (hstack : e.stack = some rest) (ins : Instruction) (args : Operands) :
    (execute action ins args).run e = e.updated rest (action.run e ins args) := by
  -- With the engine taken apart, every leaf computes.
  obtain ⟨config, phase, method, descriptor, names, locals, stack, recorded, returned, sites,
    count, sticky, sampler⟩ := e
  cases hstack
  cases action
  case dropWords | dupWords | invoke | invokeDynamic | newMultiArray => cases hfixed
  case idle | drop | push | compute => rfl
  -- Operations that read their operands only.
  case dup | returnValue => rcases args with _ | ⟨v, _ | ⟨w, args⟩⟩ <;> rfl
  case loadElement | dupBelow | swap =>
    rcases args with _ | ⟨v, _ | ⟨w, _ | ⟨x, args⟩⟩⟩ <;> rfl
  -- Operations that read the instruction, of which only one form has what they read.
  case load kind implied =>
    cases implied with
    | some n => rfl
    | none =>
        cases ins <;> try rfl
        simp only [execute, Action.run, slotOf]
        split <;> rfl
  case store implied =>
    rcases args with _ | ⟨v, _ | ⟨w, args⟩⟩
    all_goals
      cases implied with
      | some n => rfl
      | none =>
          cases ins <;> try rfl
          simp only [execute, Action.run, slotOf]
          split <;> rfl
  case increment =>
    cases ins <;> try rfl
    case iinc slot inc =>
      simp only [execute, Action.run]
      split
      · rfl
      · split
        · rfl
        · rw [run_get_bind]
          cases recorded.get? slot <;> rfl
  case allocate =>
    cases ins <;> try rfl
    case type op name =>
      simp only [execute, Action.run]
      split
      · rfl
      · simp only [allocate, run_get_bind]
        cases Value.uninitialized? (FieldType.ofClass name) (word64 (sites + 1)) <;> rfl
  case cast =>
    cases ins <;> try rfl
    simp only [execute, Action.run]
    split
    · rfl
    · rcases args with _ | ⟨v, _ | ⟨w, args⟩⟩ <;> rfl
  case pushNarrow range =>
    cases ins <;> try rfl
    cases range <;> simp only [execute, Action.run] <;> split <;> rfl
  case pushLiteral | newReferenceArray =>
    cases ins <;> try rfl
    simp only [execute, Action.run]
    split <;> rfl
  case callSubroutine =>
    cases ins <;> try rfl
    case jump op target => cases target <;> rfl
  case newPrimitiveArray =>
    cases ins <;> try rfl
    case int op code =>
      simp only [execute, Action.run]
      cases primitiveArrays.lookup code <;> rfl
  case readField =>
    cases ins <;> try rfl
    case field op owner name desc =>
      simp only [execute, Action.run]
      cases FieldType.validate desc <;> rfl

theorem dropWords_run (hstack : e.stack = some s) (ins : Instruction) :
    dropWords.run e = e.conclude s 0 (Action.dropWords.changeOf ins s) := by
  simp only [dropWords, Action.changeOf]
  cases hn : s.countWords? 0 2 with
  | none =>
      rw [run_bind_of_error (entries_run_of_none hstack hn)]
      rfl
  | some n =>
      have hle : n ≤ s.length := by simpa using Operands.le_length_drop_of_countWords? hn
      rw [run_bind_of_ok (entries_run hstack hn), drop_run hstack hle, Engine.conclude_push]
      rfl

theorem dupWords_run (hstack : e.stack = some s) (top under : Nat) (ins : Instruction) :
    (dupWords top under).run e = e.conclude s 0 ((Action.dupWords top under).changeOf ins s) := by
  simp only [dupWords, Action.changeOf]
  cases hn : s.countWords? 0 top with
  | none =>
      rw [run_bind_of_error (entries_run_of_none hstack hn)]
      rfl
  | some n =>
      rw [run_bind_of_ok (entries_run hstack hn)]
      cases hm : s.countWords? n under with
      | none =>
          rw [run_bind_of_error (entries_run_of_none hstack hm)]
          simp only [hm]
          rfl
      | some m =>
          have hle : n ≤ s.length := by simpa using Operands.le_length_drop_of_countWords? hn
          have hsum : n + m ≤ s.length := Operands.add_le_of_countWords? hle hm
          have hcopied : (s.take (n + m)).take n = s.take n := by
            rw [List.take_take, Nat.min_eq_left (Nat.le_add_right n m)]
          rw [run_bind_of_ok (entries_run hstack hm), run_bind_of_ok (pop_run hstack hsum),
            run_bind_of_ok (pushAll_run rfl _), pushAll_run rfl, hcopied, List.take_add]
          simp only [hm, Engine.conclude_push, List.append_assoc]

theorem pushResult_run (hstack : e.stack = some s) (m : MethodDescriptor) :
    (pushResult m).run e = .ok () { e with stack := some (Action.callResult m ++ s) } := by
  rw [pushResult, Action.callResult]
  cases m.isVoid with
  | false => exact push_run hstack _
  | true =>
      simp only [if_true, List.nil_append, ← hstack]
      rfl

/-- Dropping entries and pushing others is a change that is checked. -/
theorem drop_bind_run (hstack : e.stack = some s) (n : Nat) {push : Operands} {w : Work Unit}
    (hw : ∀ {e : Engine} {s : Operands}, e.stack = some s →
      w.run e = .ok () { e with stack := some (push ++ s) }) :
    (drop n >>= fun _ => w).run e =
      e.conclude s 0 (Change.checked { taken := n, update := { push } } s) := by
  unfold Change.checked
  split
  · next hle => rw [run_bind_of_ok (drop_run hstack hle), hw rfl, Engine.conclude_push]
  · next hlt => 
    rw [run_bind_of_error (drop_run_of_lt hstack (Nat.not_le.1 hlt))]
    rfl

theorem invokeSite_run (hstack : e.stack = some s) (name : Text)
    (looked : Except DescriptorError MethodDescriptor) :
    (invokeSite name looked).run e = e.conclude s 0 (Action.callSite name looked s) := by
  cases looked with
  | error err => rfl
  | ok m => exact drop_bind_run hstack _ fun h => pushResult_run h m

theorem newMultiArray_run (hstack : e.stack = some s) (desc : Text) (dims : Int) :
    (newMultiArray desc dims).run e =
      e.conclude s 0 (Action.newMultiArray.changeOf (.multiNewArray desc dims) s) := by
  simp only [newMultiArray, Action.changeOf]
  cases FieldType.validate desc with
  | error err => rfl
  | ok =>
      simp only
      split
      · rfl
      · exact drop_bind_run hstack _ fun h => push_run h _

theorem construct_run (hstack : e.stack = some s) (site : Int) :
    (construct site).run e = .ok () { e with
      stack := some (s.settle (some site)), recorded := e.recorded.settle (some site) } := by
  have hsettle : Value.settle (some site) = fun v => if v.site = site then v.initialized else v :=
    funext (Value.settle_some site)
  simp only [Operands.settle, Recorded.settle, hsettle]
  obtain ⟨config, phase, method, descriptor, names, locals, stack, recorded, returned, sites,
    count, sticky, sampler⟩ := e
  cases hstack
  rfl

theorem constructReceiver_run (hstack : e.stack = some s) (op : Opcode) (name : Text)
    (receiver : Option Value) :
    (constructReceiver op name receiver).run e = .ok () { e with
      stack := some (s.settle (Action.settled? op name receiver))
      recorded := e.recorded.settle (Action.settled? op name receiver) } := by
  have hkept : (pure () : Work Unit).run e = .ok () { e with
      stack := some (s.settle none), recorded := e.recorded.settle none } := by
    rw [Operands.settle_none, Recorded.settle_none, ← hstack]
    rfl
  cases receiver with
  | none => exact hkept
  | some v =>
      simp only [constructReceiver, Action.settled?]
      split
      · exact construct_run hstack v.site
      · exact hkept

theorem invoke_run (hstack : e.stack = some s) (op : Opcode) (owner name : Text)
    (looked : Except DescriptorError MethodDescriptor) :
    (invoke op owner name looked).run e = e.conclude s 0 (Action.call op owner name looked s) := by
  cases looked with
  | error err => rfl
  | ok m =>
      have harity : m.params.length + (if op = .invokestatic then 0 else 1) =
        Action.callArity op m := rfl
      simp only [invoke, harity, Action.call, Change.checked]
      by_cases hle : Action.callArity op m ≤ s.length
      · rw [run_bind_of_ok (require_run hstack hle), run_bind_of_ok (stack_run hstack),
          run_bind_of_ok (drop_run hstack hle), run_bind_of_ok (constructReceiver_run rfl _ _ _),
          pushResult_run rfl, if_pos hle]
        rfl
      · rw [run_bind_of_error (require_run_of_lt hstack (Nat.not_le.1 hle)), if_neg hle]
        rfl

/-- An operation that looks at the stack itself carries its change out, and touches nothing if it
fails. -/
theorem execute_run_of_isDynamic {action : Action} (hdynamic : action.isDynamic = true)
    (hstack : e.stack = some s) (ins : Instruction) (args : Operands) :
    (execute action ins args).run e = e.conclude s 0 (action.changeOf ins s) := by
  have hforeign : (crash .foreignOperand : Work Unit).run e =
      e.conclude s 0 (.error (.crash .foreignOperand)) := by
    simp only [Engine.conclude, List.drop_zero, ← hstack]
    rfl
  cases action
  case dropWords => exact dropWords_run hstack ins
  case dupWords top under => exact dupWords_run hstack top under ins
  case invoke =>
    cases ins
    case method op owner name desc interface => exact invoke_run hstack op owner name _
    all_goals exact hforeign
  case invokeDynamic =>
    cases ins
    case invokeDynamic name desc bootstrap => exact invokeSite_run hstack name _
    all_goals exact hforeign
  case newMultiArray =>
    cases ins
    case multiNewArray desc dims => exact newMultiArray_run hstack desc dims
    all_goals exact hforeign
  all_goals cases hdynamic

end
end Work

/-! ## The table of operations -/

namespace Action

/-- Entries that an operation with fixed counts takes, where what it does tells. -/
def takes? : Action → Option Nat
  | .drop => none
  | .compute _ => none
  | .readField => none
  | .store _ => some 1
  | .dup => some 1
  | .returnValue => some 1
  | .newPrimitiveArray => some 1
  | .newReferenceArray => some 1
  | .cast => some 1
  | .loadElement _ => some 2
  | .dupBelow => some 2
  | .swap => some 2
  | _ => some 0

def leaves : Action → Nat
  | .idle => 0
  | .drop => 0
  | .store _ => 0
  | .increment => 0
  | .returnValue => 0
  | .dup => 2
  | .swap => 2
  | .dupBelow => 3
  | _ => 1

theorem run_push_length {action : Action} (hfixed : action.isDynamic = false) {e : Engine}
    {ins : Instruction} {args : Operands} {u : Update} (h : action.run e ins args = .ok u) :
    u.push.length = action.leaves := by
  cases action <;> try cases hfixed
  all_goals
    simp only [run] at h
    repeat' split at h
    all_goals cases h <;> rfl

end Action

namespace Operation

/-- Operations look at the stack themselves exactly where the table has no counts for them. -/
theorem counts_eq_none_iff : ∀ o ∈ Operation.all, o.counts = none ↔ o.action.isDynamic = true := by
  decide +kernel

/-- The counts of the table are those of what the operations do. -/
theorem counts_of_action : ∀ o ∈ Operation.all, ∀ counts ∈ o.counts,
    counts.2 = o.action.leaves ∧ ∀ n ∈ o.action.takes?, counts.1 = n := by
  decide +kernel

/-- Work in place carries the change of an operation out. After a fault the engine is as it was:
the operands are back, and the operation has touched nothing else. -/
theorem perform_run {o : Operation} (ho : o ∈ Operation.all) {e : Engine} {s : Operands}
    (hstack : e.stack = some s) (ins : Instruction) :
    (o.perform ins).run e = e.conclude s o.operands (o.change e ins s) := by
  have hdynamic := counts_eq_none_iff o ho
  unfold perform change operands
  cases hcounts : o.counts with
  | none => exact Work.execute_run_of_isDynamic (hdynamic.1 hcounts) hstack ins []
  | some counts =>
      obtain ⟨pops, pushes⟩ := counts
      have hfixed : o.action.isDynamic = false := by
        rw [← Bool.not_eq_true, ← hdynamic, hcounts]
        exact Option.some_ne_none _
      simp only
      by_cases hle : pops ≤ s.length
      · have hrun := Work.execute_run (e := { e with stack := some (s.drop pops) }) hfixed rfl ins
          (s.take pops)
        have hsame : o.action.run { e with stack := some (s.drop pops) } ins (s.take pops) =
            o.action.run e ins (s.take pops) := Action.run_congr rfl rfl rfl _ _ _
        rw [hsame] at hrun
        rw [Work.run_bind_of_ok (Work.pop_run hstack hle), if_pos hle]
        generalize o.action.run e ins (s.take pops) = r at hrun
        rcases r with (f | c) | u
        · rw [Work.run_tryCatch_of_error hrun, Work.run_bind_of_ok (Work.pushAll_run rfl _)]
          simp only [List.take_append_drop, ← hstack]
          rfl
        · rw [Work.run_tryCatch_of_error hrun]
          rfl
        · rw [Work.run_tryCatch_of_ok hrun]
          simp only [Except.map, Engine.conclude, Engine.change_of_settles_none]
          rfl
      · rw [Work.run_bind_of_error (Work.pop_run_of_lt hstack (Nat.not_le.1 hle)), if_neg hle]
        rfl

end Operation

namespace Engine

section
variable {e : Engine} {s : Operands} {ins : Instruction} {o : Operation}

theorem apply_eq_perform (hop : ins.opcode.operation? = some o) (hform : ins.form = o.form)
    (index : Nat) : e.apply index (some ins) = (o.perform ins).on ins.opcode index e := by
  simp only [apply, hop, hform, ne_eq, not_true_eq_false, if_false]

variable (hstack : e.stack = some s) (hop : ins.opcode.operation? = some o)
  (hform : ins.form = o.form) (index : Nat)
include hstack hop hform

theorem apply_of_ok {c : Change} (h : o.change e ins s = .ok c) :
    e.apply index (some ins) = (e.change s c, none) := by
  rw [apply_eq_perform hop hform, Work.on,
    Operation.perform_run (List.mem_of_getElem? hop) hstack, h]
  rfl

theorem apply_of_fault {f : Fault} (h : o.change e ins s = .error (.fault f)) :
    e.apply index (some ins) = (e, some ((Stop.fault f).blame ins.opcode index)) := by
  rw [apply_eq_perform hop hform, Work.on,
    Operation.perform_run (List.mem_of_getElem? hop) hstack, h]
  rfl

theorem apply_of_crash {c : Crash} (h : o.change e ins s = .error (.crash c)) :
    e.apply index (some ins) = ({ e with stack := some (s.drop o.operands) }, some (.crash c)) := by
  rw [apply_eq_perform hop hform, Work.on,
    Operation.perform_run (List.mem_of_getElem? hop) hstack, h]
  rfl

end

end Engine

end OperandStack
