import OperandStack.Instruction.Literal
import OperandStack.Opcode.Operation

/-!
# Instructions

A decoded instruction in one of thirteen forms, or a foreign one that only tells its opcode
and form. Its labels are objects, or names for which the objects have yet to be found; a missing
one is `none`.
-/

namespace OperandStack

/-- A label, as the object that a body and its jumps share. The number tells it from the others
of the same body. -/
structure Label where
  number : Nat
  name : Text
deriving DecidableEq, Repr

/-- The name of a label, if there is one. -/
def labelText : Option Label → Text
  | some label => label.name
  | none => "<nil>"

inductive Instruction (L : Type := Label) where
  | plain (op : Opcode)
  | int (op : Opcode) (operand : Int)
  | var (op : Opcode) (slot : Int)
  | type (op : Opcode) (name : Text)
  | field (op : Opcode) (owner name descriptor : Text)
  | method (op : Opcode) (owner name descriptor : Text) (interface : Bool)
  | invokeDynamic (name descriptor : Text) (bootstrap : Handle)
  | jump (op : Opcode) (target : Option L)
  /-- Loads a constant; without an opcode the width of the constant decides. -/
  | ldc (op : Option Opcode) (value : Literal)
  | iinc (slot increment : Int)
  | tableSwitch (min max : Int) (targets : List (Option L)) (fallback : Option L)
  | lookupSwitch (keys : List Int) (targets : List (Option L)) (fallback : Option L)
  | multiNewArray (descriptor : Text) (dims : Int)
  | foreign (op : Opcode) (form : Form)
deriving DecidableEq, Repr

namespace Instruction

section
variable {L M : Type}

/-- The opcode that loads a literal of its width. -/
def literalOpcode : Literal → Opcode
  | .long _ => .ldc2W
  | .double _ => .ldc2W
  | _ => .ldc

def opcode : Instruction L → Opcode
  | .plain op => op
  | .int op _ => op
  | .var op _ => op
  | .type op _ => op
  | .field op _ _ _ => op
  | .method op _ _ _ _ => op
  | .invokeDynamic _ _ _ => .invokedynamic
  | .jump op _ => op
  | .ldc op value => op.getD (literalOpcode value)
  | .iinc _ _ => .iinc
  | .tableSwitch _ _ _ _ => .tableswitch
  | .lookupSwitch _ _ _ => .lookupswitch
  | .multiNewArray _ _ => .multianewarray
  | .foreign op _ => op

def form : Instruction L → Form
  | .plain _ => .insn
  | .int _ _ => .int
  | .var _ _ => .var
  | .type _ _ => .type
  | .field _ _ _ _ => .field
  | .method _ _ _ _ _ => .method
  | .invokeDynamic _ _ _ => .invokeDynamic
  | .jump _ _ => .jump
  | .ldc _ _ => .ldc
  | .iinc _ _ => .iinc
  | .tableSwitch _ _ _ _ => .tableSwitch
  | .lookupSwitch _ _ _ => .lookupSwitch
  | .multiNewArray _ _ => .multiNewArray
  | .foreign _ form => form

/-- The labels an instruction may go to, the one a switch falls back to in front. -/
def targets : Instruction L → List L
  | .jump _ target => target.toList
  | .tableSwitch _ _ targets fallback => fallback.toList ++ targets.filterMap id
  | .lookupSwitch _ targets fallback => fallback.toList ++ targets.filterMap id
  | _ => []

/-- Replaces the labels one after the other, in the order of `targets`. -/
def traverse {m : Type → Type} [Monad m] (f : L → m M) : Instruction L → m (Instruction M)
  | .plain op => pure (.plain op)
  | .int op operand => pure (.int op operand)
  | .var op slot => pure (.var op slot)
  | .type op name => pure (.type op name)
  | .field op owner name desc => pure (.field op owner name desc)
  | .method op owner name desc interface => pure (.method op owner name desc interface)
  | .invokeDynamic name desc bootstrap => pure (.invokeDynamic name desc bootstrap)
  | .jump op target => return .jump op (← target.mapM f)
  | .ldc op value => pure (.ldc op value)
  | .iinc slot increment => pure (.iinc slot increment)
  | .tableSwitch min max targets fallback => do
    let fallback ← fallback.mapM f
    return .tableSwitch min max (← targets.mapM fun target => target.mapM f) fallback
  | .lookupSwitch keys targets fallback => do
    let fallback ← fallback.mapM f
    return .lookupSwitch keys (← targets.mapM fun target => target.mapM f) fallback
  | .multiNewArray desc dims => pure (.multiNewArray desc dims)
  | .foreign op form => pure (.foreign op form)

end

/-- An instruction of the thirteen forms, which carries the operands of its form. -/
def isClosed : Instruction → Bool
  | .foreign _ _ => false
  | _ => true

/-- An operation and a member it names. -/
def memberText (op : Opcode) (owner name : Text) : Text :=
  op.toText ++ " " ++ owner ++ "." ++ name

def toText (ins : Instruction) : Text :=
  match ins with
  | .plain op => op.toText
  | .int op n => op.toText ++ " " ++ Text.ofInt n
  | .var op slot => op.toText ++ " " ++ Text.ofInt slot
  | .type op name => op.toText ++ " " ++ name
  | .field op owner name desc => memberText op owner name ++ " " ++ desc
  | .method op owner name desc _ => memberText op owner name ++ " " ++ desc
  | .invokeDynamic name desc _ => "invokedynamic " ++ name ++ " " ++ desc
  | .jump op target => op.toText ++ " " ++ labelText target
  | .ldc _ (.string t) => ins.opcode.toText ++ " " ++ Text.quote t
  | .ldc _ value => ins.opcode.toText ++ " " ++ value.toText
  | .iinc slot inc => "iinc " ++ Text.ofInt slot ++ " " ++ Text.ofInt inc
  | .tableSwitch min max _ fallback =>
    "tableswitch " ++ Text.ofInt min ++ ".." ++ Text.ofInt max ++ " default " ++ labelText fallback
  | .lookupSwitch keys _ fallback =>
    "lookupswitch " ++ Text.bracketed " " (keys.map Text.ofInt) ++ " default " ++ labelText fallback
  | .multiNewArray desc dims => "multianewarray " ++ desc ++ " " ++ Text.ofInt dims
  | .foreign _ _ => "custom"

end Instruction

/-- The text of an instruction that may be missing. -/
def instructionText : Option Instruction → Text
  | some ins => ins.toText
  | none => "<nil>"

end OperandStack
