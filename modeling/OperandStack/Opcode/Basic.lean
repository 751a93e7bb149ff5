import OperandStack.Text.Basic

/-!
# Opcodes and instruction forms

An opcode is one byte; not every byte is in use. A form is the shape in which an
instruction is delivered, told by the operands it carries.
-/

namespace OperandStack

structure Opcode where
  code : UInt8
deriving DecidableEq, Repr

namespace Opcode

def nop : Opcode := ⟨0x00⟩
def bipush : Opcode := ⟨0x10⟩
def sipush : Opcode := ⟨0x11⟩
def ldc : Opcode := ⟨0x12⟩
def ldc2W : Opcode := ⟨0x14⟩
def pop2 : Opcode := ⟨0x58⟩
def dupX2 : Opcode := ⟨0x5B⟩
def dup2 : Opcode := ⟨0x5C⟩
def dup2X1 : Opcode := ⟨0x5D⟩
def dup2X2 : Opcode := ⟨0x5E⟩
def iinc : Opcode := ⟨0x84⟩
def tableswitch : Opcode := ⟨0xAA⟩
def lookupswitch : Opcode := ⟨0xAB⟩
def invokespecial : Opcode := ⟨0xB7⟩
def invokestatic : Opcode := ⟨0xB8⟩
def invokeinterface : Opcode := ⟨0xB9⟩
def invokedynamic : Opcode := ⟨0xBA⟩
def new : Opcode := ⟨0xBB⟩
def newarray : Opcode := ⟨0xBC⟩
def anewarray : Opcode := ⟨0xBD⟩
def checkcast : Opcode := ⟨0xC0⟩
def multianewarray : Opcode := ⟨0xC5⟩

/-- Returns from the method. -/
def isReturn (op : Opcode) : Bool := 0xAC ≤ op.code && op.code ≤ 0xB1

/-- May transfer control: conditional jumps, jumps, subroutine calls and switches. -/
def isBranch (op : Opcode) : Bool :=
  (0x99 ≤ op.code && op.code ≤ 0xAB) || (0xC6 ≤ op.code && op.code ≤ 0xC9)

/-- Calls a method. -/
def isInvoke (op : Opcode) : Bool := 0xB6 ≤ op.code && op.code ≤ 0xBA

end Opcode

/-- The forms of the instruction set, and others that a foreign instruction may claim. -/
inductive Form where
  | insn
  | int
  | var
  | type
  | field
  | method
  | invokeDynamic
  | jump
  | ldc
  | iinc
  | tableSwitch
  | lookupSwitch
  | multiNewArray
  | other (number : Nat)
deriving DecidableEq, Repr

namespace Form

def closed : List Form :=
  [.insn, .int, .var, .type, .field, .method, .invokeDynamic, .jump, .ldc, .iinc,
    .tableSwitch, .lookupSwitch, .multiNewArray]

/-- The form with the given number. -/
def ofNat (n : Nat) : Form := (closed[n]?).getD (.other n)

def toText : Form → Text
  | .insn => "insn"
  | .int => "int"
  | .var => "var"
  | .type => "type"
  | .field => "field"
  | .method => "method"
  | .invokeDynamic => "invokedynamic"
  | .jump => "jump"
  | .ldc => "ldc"
  | .iinc => "iinc"
  | .tableSwitch => "tableswitch"
  | .lookupSwitch => "lookupswitch"
  | .multiNewArray => "multianewarray"
  | .other n => "Form(" ++ Text.ofNat n ++ ")"

end Form

end OperandStack
