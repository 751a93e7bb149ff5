import OperandStack.Instruction.Basic

/-!
# Faults

Every way in which an event or a stack operation can fail, as a cause with its operands.
`Fault.message` holds the wording. A crash is no fault: it stands for a broken promise of
the caller, which the simulator does not report as an error of the method.
-/

namespace OperandStack

/-- Position of a simulator in the sequence of events. -/
inductive Phase where
  /-- Between methods. -/
  | unattached
  /-- After a declaration, before the code. -/
  | inMethod
  /-- Inside a method body. -/
  | inCode
deriving DecidableEq, Repr

def Phase.toText : Phase → Text
  | .unattached => "unattached"
  | .inMethod => "in-method"
  | .inCode => "in-code"

/-- The name of the phase with the given number. -/
def Phase.nameOf : Nat → Text
  | 0 => Phase.unattached.toText
  | 1 => Phase.inMethod.toText
  | 2 => Phase.inCode.toText
  | n => "State(" ++ Text.ofNat n ++ ")"

/-- The kinds of event that are not welcome in every phase. -/
inductive EventKind where
  | parameter
  | code
  | label
  | instruction
  | finish
deriving DecidableEq, Repr

def EventKind.toText : EventKind → Text
  | .parameter => "parameter"
  | .code => "code"
  | .label => "label"
  | .instruction => "instruction"
  | .finish => "end"

/-- A stack of `size` entries where `needed` were asked for. -/
structure Underflow where
  size : Nat
  needed : Int
deriving DecidableEq, Repr

def Underflow.message (u : Underflow) : Text :=
  "stack underflow (" ++ Text.ofNat u.size ++ " <=> " ++ Text.ofInt u.needed ++ ")"

/-- Why an instruction does not fit its opcode. -/
inductive Malformation where
  | absent
  | form (got want : Form)
  | byteRange (operand : Int)
  | shortRange (operand : Int)
  | category (value : Literal)
  | slotRange (slot : Int)
  | incrementRange (increment : Int)
  | noTarget
  | noClass
  | noElementType
  | noTargetType
  | arrayType (code : Int)
  | dimensions (dims : Int) (descriptor : Text)
  | noEffect (form : Form)
deriving DecidableEq, Repr

def Malformation.message : Malformation → Text
  | .absent => "nil instruction"
  | .form got want => "delivered as " ++ got.toText ++ " instruction, want " ++ want.toText
  | .byteRange n => "operand " ++ Text.ofInt n ++ " out of byte range"
  | .shortRange n => "operand " ++ Text.ofInt n ++ " out of short range"
  | .category value => "constant " ++ value.toText ++ " has the wrong category"
  | .slotRange slot => "local variable index " ++ Text.ofInt slot ++ " out of range"
  | .incrementRange inc => "increment " ++ Text.ofInt inc ++ " out of range"
  | .noTarget => "missing target label"
  | .noClass => "missing class name"
  | .noElementType => "missing element type"
  | .noTargetType => "missing target type"
  | .arrayType code => "invalid array type " ++ Text.ofInt code
  | .dimensions dims desc => Text.ofInt dims ++ " dimensions for " ++ desc
  | .noEffect f => "no stack effect for " ++ f.toText ++ " instruction"

inductive Fault where
  | underflow (u : Underflow)
  /-- An underflow at the instruction with the given index. -/
  | underflowAt (op : Opcode) (index : Nat) (u : Underflow)
  | invalidOpcode (op : Opcode)
  | malformed (op : Opcode) (why : Malformation)
  | unexpected (event : EventKind) (phase : Phase)
  | tooManyParameters
  /-- A parameter name beyond the parameters of its method. -/
  | surplusName (method name : Text)
  | descriptor (e : DescriptorError)
  /-- A method declared with a malformed descriptor. -/
  | declaration (name : Text) (e : DescriptorError)
  /-- A field or method named with a malformed descriptor. -/
  | member (op : Opcode) (owner name : Text) (e : DescriptorError)
  | callSite (name : Text) (e : DescriptorError)
  | arrayDescriptor (e : DescriptorError)
  /-- A downstream visitor refused an event. -/
  | refused (event : Nat)
deriving DecidableEq, Repr

def Fault.message : Fault → Text
  | .underflow u => u.message
  | .underflowAt op index u =>
    op.toText ++ " at instruction " ++ Text.ofNat index ++ ": " ++ u.message
  | .invalidOpcode op => "invalid opcode: " ++ op.toText
  | .malformed op why => "malformed " ++ op.toText ++ " instruction: " ++ why.message
  | .unexpected event phase =>
    "unexpected " ++ event.toText ++ " event in state " ++ phase.toText
  | .tooManyParameters => "too many parameter declarations"
  | .surplusName method name =>
    "method " ++ method ++ ": parameter " ++ Text.quote name ++ ": too many parameter declarations"
  | .descriptor e => e.message
  | .declaration name e => "method " ++ name ++ ": " ++ e.message
  | .member op owner name e => Instruction.memberText op owner name ++ ": " ++ e.message
  | .callSite name e => "invokedynamic " ++ name ++ ": " ++ e.message
  | .arrayDescriptor e => "multianewarray: " ++ e.message
  | .refused n => "downstream refused event " ++ Text.ofNat n

/-- The refused descriptor behind a fault. -/
def Fault.descriptorError? : Fault → Option DescriptorError
  | .descriptor e => some e
  | .declaration _ e => some e
  | .member _ _ _ e => some e
  | .callSite _ e => some e
  | .arrayDescriptor e => some e
  | _ => none

/-- A promise of the caller that was broken. -/
inductive Crash where
  /-- Something that the phase promises is missing. -/
  | missing
  /-- A foreign instruction without the operands of the form it claims. -/
  | foreignOperand
  /-- Fewer operands than the operation declares. -/
  | operandCount
  /-- More entries exposed than the storage of a stack holds. -/
  | bounds
  /-- An allocation site that is not positive. -/
  | site (site : Int)
  /-- A code element that is neither an instruction nor a label. -/
  | codeElement
deriving DecidableEq, Repr

/-- What a crash says of itself, if it says anything. -/
def Crash.message? : Crash → Option Text
  | .site n => some ("invalid allocation site " ++ Text.ofInt n)
  | .codeElement => some "vmtest: unexpected code element <nil>"
  | _ => none

/-- Why an event was not applied. -/
inductive Stop where
  | fault (f : Fault)
  | crash (c : Crash)
deriving DecidableEq, Repr

end OperandStack
