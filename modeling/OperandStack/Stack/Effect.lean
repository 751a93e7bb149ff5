import OperandStack.Descriptor.Method
import OperandStack.Stack.Operands

/-!
# Stack effects

How many entries an instruction would take from a stack and leave on it, found without
applying it.
-/

namespace OperandStack

/-- Entries taken and left. The number taken is an operand of some instructions and need not
make sense. -/
structure Effect where
  pops : Int
  pushes : Int
deriving DecidableEq, Repr

namespace Effect

/-- The size of the stack afterwards. -/
def nextSize (e : Effect) (size : Nat) : Int := word64 (size - e.pops + e.pushes)

/-- A call takes its arguments and a receiver, and leaves its result. -/
def ofCall (m : MethodDescriptor) (receiver : Bool) : Effect :=
  ⟨m.params.length + (if receiver then 1 else 0), if m.isVoid then 0 else 1⟩

/-- The shuffles whose counts depend on the categories of entries, with the words they reach: those
on top, and those under them. -/
def shuffles : List (Opcode × Nat × Nat) :=
  [(.pop2, 2, 0), (.dupX2, 1, 2), (.dup2, 2, 0), (.dup2X1, 2, 1), (.dup2X2, 2, 2)]

/-- A shuffle either drops the entries of the top words, or copies them below those of the words
under them. -/
def ofShuffle (op : Opcode) (top under : Nat) (s : Operands) : Except Fault Effect :=
  match s.countWords? 0 top with
  | none => .error (.underflow s.shortfall)
  | some n =>
    if op = .pop2 then .ok ⟨n, 0⟩
    else match s.countWords? n under with
      | none => .error (.underflow s.shortfall)
      | some m => .ok ⟨n + m, 2 * n + m⟩

/-- The effect of an instruction whose counts depend on operands or entries. -/
def ofDynamic (ins : Instruction) (s : Operands) : Except Fault Effect :=
  match ins with
  | .method op _ _ desc _ =>
    match MethodDescriptor.parse desc with
    | .ok m => .ok (ofCall m (op ≠ .invokestatic))
    | .error e => .error (.descriptor e)
  | .invokeDynamic _ desc _ =>
    match MethodDescriptor.parse desc with
    | .ok m => .ok (ofCall m false)
    | .error e => .error (.descriptor e)
  | .multiNewArray _ dims => .ok ⟨dims, 1⟩
  | _ =>
    match shuffles.lookup ins.opcode with
    | some (top, under) => ofShuffle ins.opcode top under s
    | none => .error (.malformed ins.opcode (.noEffect ins.form))

end Effect

/-- The effect of an instruction on a stack. -/
def Instruction.effect (ins : Instruction) (s : Operands) : Except Fault Effect :=
  match ins.opcode.operation? with
  | none => .error (.invalidOpcode ins.opcode)
  | some o =>
    match o.counts with
    | some (pops, pushes) => .ok ⟨pops, pushes⟩
    | none => Effect.ofDynamic ins s

/-- The size of the stack after the instruction. -/
def Instruction.nextSize (ins : Instruction) (s : Operands) : Except Fault Int :=
  (ins.effect s).map fun e => e.nextSize s.length

end OperandStack
