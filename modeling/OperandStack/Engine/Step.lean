import OperandStack.Engine.Work

/-!
# Applying instructions

`Work.execute` is what an operation does with an engine. Operations with fixed counts find
their operands already taken off the stack; `Operation.perform` takes them off before, and puts
them back if the operation fails. Operations whose counts depend on operands or entries look at
the stack themselves. `Engine.apply` finds the operation of an instruction and performs it.
-/

namespace OperandStack

/-- Slots are numbered by 16 bits. -/
def maxSlot : Int := 65535

/-- Increments are signed 16-bit integers. -/
def isShort (n : Int) : Bool := -32768 ≤ n && n ≤ 32767

def isByte (n : Int) : Bool := -128 ≤ n && n ≤ 127

/-- The slot of a load or store: given by the opcode, or else by the operand. -/
def slotOf (ins : Instruction) (implied : Option Nat) : Except Stop Int :=
  match implied with
  | some n => .ok n
  | none =>
    match ins with
    | .var op slot =>
      if 0 ≤ slot && slot ≤ maxSlot then .ok slot
      else .error (.fault (.malformed op (.slotRange slot)))
    | _ => .error (.crash .foreignOperand)

/-- Array types by the code of their primitive element type. -/
def primitiveArrays : List (Int × Text) :=
  [(4, FieldType.boolean), (5, FieldType.char), (6, FieldType.float), (7, FieldType.double),
    (8, FieldType.byte), (9, FieldType.short), (10, FieldType.int), (11, FieldType.long)]

/-- The type of an element loaded from an array of the given type: known reference elements
keep their type, and boolean arrays are read by the byte instruction. -/
def elementKind (kind array : Text) : Text :=
  match FieldType.element? array with
  | some element =>
    if kind = FieldType.object && FieldType.isReference element then element
    else if kind = FieldType.byte && element = FieldType.boolean then element
    else kind
  | none => kind

namespace Engine

/-- The value loaded from a slot: what was stored there, else a declared parameter, else a
value of the kind the instruction loads. -/
def loaded (e : Engine) (slot : Int) (kind : Text) : Value :=
  match e.recorded.get? slot with
  | some v => v
  | none =>
    match e.locals.bind (·.lookup slot) with
    | some p => .typed p.signature
    | none => .typed kind

/-- An increment of a recorded slot: an int constant moves on, any other value becomes an
int. -/
def incremented (v : Value) (inc : Int) : Value :=
  match v.constant with
  | some (.int c) => .const FieldType.int (.int (c + Int32.ofInt inc))
  | _ => .typed FieldType.int

/-- The name of constructors. -/
def constructorName : Text := "<init>"

end Engine

namespace Work

/-- Numbers a fresh allocation and pushes the reference to it. -/
def allocate (name : Text) : Work Unit := do
  let site := word64 ((← get).sites + 1)
  match Value.uninitialized? (FieldType.ofClass name) site with
  | some v => do
    modify fun e => { e with sites := site }
    push v
  | none => crash (.site site)

/-- Drops the entries of the top two words. -/
def dropWords : Work Unit := do
  let n ← entries 0 2
  drop n

/-- Copies the entries of the top words below those of the words under them. -/
def dupWords (top under : Nat) : Work Unit := do
  let n ← entries 0 top
  let m ← entries n under
  let moved ← pop (n + m)
  pushAll (moved.take n)
  pushAll moved

/-- Pushes the result of a call, if it has one. -/
def pushResult (m : MethodDescriptor) : Work Unit := do
  if !m.isVoid then push (.typed m.result)

/-- The call of a constructor on a fresh reference constructs all copies of it. -/
def constructReceiver (op : Opcode) (name : Text) (receiver : Option Value) : Work Unit := do
  match receiver with
  | some v =>
    if op = .invokespecial && name = Engine.constructorName && v.isUninitialized then
      construct v.site
  | none => pure ()

/-- Calls a method whose descriptor has been looked up. -/
def invoke (op : Opcode) (owner name : Text) (looked : Except DescriptorError MethodDescriptor) :
    Work Unit := do
  match looked with
  | .error err => fail (.member op owner name err)
  | .ok m =>
    let n := m.params.length + (if op = .invokestatic then 0 else 1)
    require n
    let receiver := (← stack)[m.params.length]?
    drop n
    constructReceiver op name receiver
    pushResult m

/-- Calls a call site whose descriptor has been looked up. -/
def invokeSite (name : Text) (looked : Except DescriptorError MethodDescriptor) : Work Unit := do
  match looked with
  | .error err => fail (.callSite name err)
  | .ok m =>
    drop m.params.length
    pushResult m

def newMultiArray (desc : Text) (dims : Int) : Work Unit := do
  match FieldType.validate desc with
  | .error err => fail (.arrayDescriptor err)
  | .ok () =>
    if dims < 1 || (FieldType.dimensions desc : Int) < dims then
      malformed .multianewarray (.dimensions dims desc)
    else
      drop dims.toNat
      push (.typed desc)

/-- Executes an operation. The operands of one with fixed counts are given top first; they are off
the stack. -/
def execute (action : Action) (ins : Instruction) (args : Operands) : Work Unit :=
  match action with
  | .idle => pure ()
  | .drop => pure ()
  | .push v => push v
  | .pushNarrow range =>
    match ins with
    | .int op n =>
      match range with
      | .byte =>
        if isByte n then push (.const FieldType.int (.int (Int32.ofInt n)))
        else malformed op (.byteRange n)
      | .short =>
        if isShort n then push (.const FieldType.int (.int (Int32.ofInt n)))
        else malformed op (.shortRange n)
    | _ => crash .foreignOperand
  | .pushLiteral =>
    match ins with
    | .ldc _ literal =>
      let v := literal.value
      if (v.category == 2) == (ins.opcode == .ldc2W) then push v
      else malformed ins.opcode (.category literal)
    | _ => crash .foreignOperand
  | .load kind implied => do
    let slot ← MonadExcept.ofExcept (slotOf ins implied)
    push ((← get).loaded slot kind)
  | .store implied => do
    let slot ← MonadExcept.ofExcept (slotOf ins implied)
    match args with
    | [v] => record slot v
    | _ => crash .operandCount
  | .increment =>
    match ins with
    | .iinc slot inc =>
      if !(0 ≤ slot && slot ≤ maxSlot) then malformed .iinc (.slotRange slot)
      else if !isShort inc then malformed .iinc (.incrementRange inc)
      else do
        match (← get).recorded.get? slot with
        | some v => record slot (Engine.incremented v inc)
        | none => pure ()
    | _ => crash .foreignOperand
  | .loadElement kind =>
    match args with
    | [_, array] => push (.typed (elementKind kind array.signature))
    | _ => crash .operandCount
  | .compute kind => push (.typed kind)
  | .dup =>
    match args with
    | [v] => do push v; push v
    | _ => crash .operandCount
  | .dupBelow =>
    match args with
    | [v, w] => do push v; push w; push v
    | _ => crash .operandCount
  | .swap =>
    match args with
    | [v, w] => do push v; push w
    | _ => crash .operandCount
  | .dropWords => dropWords
  | .dupWords top under => dupWords top under
  | .callSubroutine =>
    match ins with
    | .jump _ (some _) => push .address
    | .jump op none => malformed op .noTarget
    | _ => crash .foreignOperand
  | .returnValue =>
    match args with
    | [v] => modify fun e => { e with returned := some v }
    | _ => crash .operandCount
  | .readField =>
    match ins with
    | .field op owner name desc =>
      match FieldType.validate desc with
      | .ok () => push (.ofField ⟨owner, name, desc⟩)
      | .error err => fail (.member op owner name err)
    | _ => crash .foreignOperand
  | .invoke =>
    match ins with
    | .method op owner name desc _ => invoke op owner name (MethodDescriptor.parse desc)
    | _ => crash .foreignOperand
  | .invokeDynamic =>
    match ins with
    | .invokeDynamic name desc _ => invokeSite name (MethodDescriptor.parse desc)
    | _ => crash .foreignOperand
  | .allocate =>
    match ins with
    | .type op name => if name.isEmpty then malformed op .noClass else allocate name
    | _ => crash .foreignOperand
  | .newPrimitiveArray =>
    match ins with
    | .int op code =>
      match primitiveArrays.lookup code with
      | some element => push (.typed (FieldType.arrayOf element))
      | none => malformed op (.arrayType code)
    | _ => crash .foreignOperand
  | .newReferenceArray =>
    match ins with
    | .type op name =>
      if name.isEmpty then malformed op .noElementType
      else push (.typed (FieldType.arrayOf (FieldType.ofClass name)))
    | _ => crash .foreignOperand
  | .newMultiArray =>
    match ins with
    | .multiNewArray desc dims => newMultiArray desc dims
    | _ => crash .foreignOperand
  | .cast =>
    match ins with
    | .type op name =>
      if name.isEmpty then malformed op .noTargetType
      else match args with
        | [v] => push (v.withSignature (FieldType.ofClass name))
        | _ => crash .operandCount
    | _ => crash .foreignOperand

end Work

/-- Performs an operation. After a fault the operands go back on the stack, whatever the operation
has done to it by then; a crash leaves everything as it lies. -/
def Operation.perform (o : Operation) (ins : Instruction) : Work Unit :=
  match o.counts with
  | none => Work.execute o.action ins []
  | some (pops, _) => do
    let args ← Work.pop pops
    tryCatch (Work.execute o.action ins args) fun
      | .fault f => do
        Work.pushAll args
        throw (.fault f)
      | .crash c => throw (.crash c)

/-- Applies an instruction to the stack. -/
def Engine.apply (e : Engine) (index : Nat) (ins : Option Instruction) : Engine × Option Stop :=
  match ins with
  | none => (e, some (.fault (.malformed .nop .absent)))
  | some ins =>
    match ins.opcode.operation? with
    | none => (e, some (.fault (.invalidOpcode ins.opcode)))
    | some o =>
      if ins.form ≠ o.form then (e, some (.fault (.malformed ins.opcode (.form ins.form o.form))))
      else (o.perform ins).on ins.opcode index e

end OperandStack
