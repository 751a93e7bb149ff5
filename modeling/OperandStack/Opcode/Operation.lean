import OperandStack.Opcode.Basic
import OperandStack.Value.Basic

/-!
# The instruction set

Every opcode in use has an operation: its mnemonic, the form it is delivered in, the numbers of
entries it takes from the stack and leaves there, and what it does. The numbers are missing where
they depend on operands or on the categories of stack entries.
-/

namespace OperandStack

/-- Operand ranges of the instructions that push a small integer. -/
inductive Narrow where
  | byte
  | short
deriving DecidableEq, Repr

/-- What an operation does with its operands. -/
inductive Action where
  | idle
  | drop
  | push (v : Value)
  | pushNarrow (range : Narrow)
  | pushLiteral
  /-- Loads from a slot, given by the opcode or by the operand. -/
  | load (kind : Text) (implied : Option Nat)
  | store (implied : Option Nat)
  | increment
  | loadElement (kind : Text)
  /-- Replaces its operands by one result of a known type. -/
  | compute (kind : Text)
  | dup
  /-- Copies the top entry below the one under it. -/
  | dupBelow
  | swap
  /-- Drops the entries that make up the top two words. -/
  | dropWords
  /-- Copies the entries of the top words below those of the words under them. -/
  | dupWords (top under : Nat)
  | callSubroutine
  | returnValue
  | readField
  | invoke
  | invokeDynamic
  | allocate
  | newPrimitiveArray
  | newReferenceArray
  | newMultiArray
  | cast
deriving DecidableEq, Repr

structure Operation where
  mnemonic : Text
  form : Form
  /-- Entries taken from and left on the stack, where these numbers are fixed. -/
  counts : Option (Nat × Nat)
  action : Action
deriving DecidableEq, Repr

namespace Operation

def fixed (mnemonic : Text) (form : Form) (pops pushes : Nat) (action : Action) : Operation :=
  ⟨mnemonic, form, some (pops, pushes), action⟩

/-- An operation that looks at the stack itself. -/
def dynamic (mnemonic : Text) (form : Form) (action : Action) : Operation :=
  ⟨mnemonic, form, none, action⟩

/-- Constants, from opcode 0x00. -/
def constants : List Operation :=
  [fixed "nop" .insn 0 0 .idle,
    fixed "aconst_null" .insn 0 1 (.push (.const [] .null)),
    fixed "iconst_m1" .insn 0 1 (.push (.const FieldType.int (.int (-1)))),
    fixed "iconst_0" .insn 0 1 (.push (.const FieldType.int (.int 0))),
    fixed "iconst_1" .insn 0 1 (.push (.const FieldType.int (.int 1))),
    fixed "iconst_2" .insn 0 1 (.push (.const FieldType.int (.int 2))),
    fixed "iconst_3" .insn 0 1 (.push (.const FieldType.int (.int 3))),
    fixed "iconst_4" .insn 0 1 (.push (.const FieldType.int (.int 4))),
    fixed "iconst_5" .insn 0 1 (.push (.const FieldType.int (.int 5))),
    fixed "lconst_0" .insn 0 1 (.push (.const FieldType.long (.long 0))),
    fixed "lconst_1" .insn 0 1 (.push (.const FieldType.long (.long 1))),
    fixed "fconst_0" .insn 0 1 (.push (.const FieldType.float (.float 0))),
    fixed "fconst_1" .insn 0 1 (.push (.const FieldType.float (.float 0x3F800000))),
    fixed "fconst_2" .insn 0 1 (.push (.const FieldType.float (.float 0x40000000))),
    fixed "dconst_0" .insn 0 1 (.push (.const FieldType.double (.double 0))),
    fixed "dconst_1" .insn 0 1 (.push (.const FieldType.double (.double 0x3FF0000000000000))),
    fixed "bipush" .int 0 1 (.pushNarrow .byte),
    fixed "sipush" .int 0 1 (.pushNarrow .short),
    fixed "ldc" .ldc 0 1 .pushLiteral,
    fixed "ldc_w" .ldc 0 1 .pushLiteral,
    fixed "ldc2_w" .ldc 0 1 .pushLiteral]

/-- Loads, from opcode 0x15. -/
def loads : List Operation :=
  [fixed "iload" .var 0 1 (.load FieldType.int none),
    fixed "lload" .var 0 1 (.load FieldType.long none),
    fixed "fload" .var 0 1 (.load FieldType.float none),
    fixed "dload" .var 0 1 (.load FieldType.double none),
    fixed "aload" .var 0 1 (.load [] none),
    fixed "iload_0" .insn 0 1 (.load FieldType.int (some 0)),
    fixed "iload_1" .insn 0 1 (.load FieldType.int (some 1)),
    fixed "iload_2" .insn 0 1 (.load FieldType.int (some 2)),
    fixed "iload_3" .insn 0 1 (.load FieldType.int (some 3)),
    fixed "lload_0" .insn 0 1 (.load FieldType.long (some 0)),
    fixed "lload_1" .insn 0 1 (.load FieldType.long (some 1)),
    fixed "lload_2" .insn 0 1 (.load FieldType.long (some 2)),
    fixed "lload_3" .insn 0 1 (.load FieldType.long (some 3)),
    fixed "fload_0" .insn 0 1 (.load FieldType.float (some 0)),
    fixed "fload_1" .insn 0 1 (.load FieldType.float (some 1)),
    fixed "fload_2" .insn 0 1 (.load FieldType.float (some 2)),
    fixed "fload_3" .insn 0 1 (.load FieldType.float (some 3)),
    fixed "dload_0" .insn 0 1 (.load FieldType.double (some 0)),
    fixed "dload_1" .insn 0 1 (.load FieldType.double (some 1)),
    fixed "dload_2" .insn 0 1 (.load FieldType.double (some 2)),
    fixed "dload_3" .insn 0 1 (.load FieldType.double (some 3)),
    fixed "aload_0" .insn 0 1 (.load [] (some 0)),
    fixed "aload_1" .insn 0 1 (.load [] (some 1)),
    fixed "aload_2" .insn 0 1 (.load [] (some 2)),
    fixed "aload_3" .insn 0 1 (.load [] (some 3)),
    fixed "iaload" .insn 2 1 (.loadElement FieldType.int),
    fixed "laload" .insn 2 1 (.loadElement FieldType.long),
    fixed "faload" .insn 2 1 (.loadElement FieldType.float),
    fixed "daload" .insn 2 1 (.loadElement FieldType.double),
    fixed "aaload" .insn 2 1 (.loadElement FieldType.object),
    fixed "baload" .insn 2 1 (.loadElement FieldType.byte),
    fixed "caload" .insn 2 1 (.loadElement FieldType.char),
    fixed "saload" .insn 2 1 (.loadElement FieldType.short)]

/-- Stores, from opcode 0x36. -/
def stores : List Operation :=
  [fixed "istore" .var 1 0 (.store none),
    fixed "lstore" .var 1 0 (.store none),
    fixed "fstore" .var 1 0 (.store none),
    fixed "dstore" .var 1 0 (.store none),
    fixed "astore" .var 1 0 (.store none),
    fixed "istore_0" .insn 1 0 (.store (some 0)),
    fixed "istore_1" .insn 1 0 (.store (some 1)),
    fixed "istore_2" .insn 1 0 (.store (some 2)),
    fixed "istore_3" .insn 1 0 (.store (some 3)),
    fixed "lstore_0" .insn 1 0 (.store (some 0)),
    fixed "lstore_1" .insn 1 0 (.store (some 1)),
    fixed "lstore_2" .insn 1 0 (.store (some 2)),
    fixed "lstore_3" .insn 1 0 (.store (some 3)),
    fixed "fstore_0" .insn 1 0 (.store (some 0)),
    fixed "fstore_1" .insn 1 0 (.store (some 1)),
    fixed "fstore_2" .insn 1 0 (.store (some 2)),
    fixed "fstore_3" .insn 1 0 (.store (some 3)),
    fixed "dstore_0" .insn 1 0 (.store (some 0)),
    fixed "dstore_1" .insn 1 0 (.store (some 1)),
    fixed "dstore_2" .insn 1 0 (.store (some 2)),
    fixed "dstore_3" .insn 1 0 (.store (some 3)),
    fixed "astore_0" .insn 1 0 (.store (some 0)),
    fixed "astore_1" .insn 1 0 (.store (some 1)),
    fixed "astore_2" .insn 1 0 (.store (some 2)),
    fixed "astore_3" .insn 1 0 (.store (some 3)),
    fixed "iastore" .insn 3 0 .drop,
    fixed "lastore" .insn 3 0 .drop,
    fixed "fastore" .insn 3 0 .drop,
    fixed "dastore" .insn 3 0 .drop,
    fixed "aastore" .insn 3 0 .drop,
    fixed "bastore" .insn 3 0 .drop,
    fixed "castore" .insn 3 0 .drop,
    fixed "sastore" .insn 3 0 .drop]

/-- Stack shuffles, from opcode 0x57. -/
def shuffles : List Operation :=
  [fixed "pop" .insn 1 0 .drop,
    dynamic "pop2" .insn .dropWords,
    fixed "dup" .insn 1 2 .dup,
    fixed "dup_x1" .insn 2 3 .dupBelow,
    dynamic "dup_x2" .insn (.dupWords 1 2),
    dynamic "dup2" .insn (.dupWords 2 0),
    dynamic "dup2_x1" .insn (.dupWords 2 1),
    dynamic "dup2_x2" .insn (.dupWords 2 2),
    fixed "swap" .insn 2 2 .swap]

/-- Arithmetic, from opcode 0x60. -/
def arithmetic : List Operation :=
  [fixed "iadd" .insn 2 1 (.compute FieldType.int),
    fixed "ladd" .insn 2 1 (.compute FieldType.long),
    fixed "fadd" .insn 2 1 (.compute FieldType.float),
    fixed "dadd" .insn 2 1 (.compute FieldType.double),
    fixed "isub" .insn 2 1 (.compute FieldType.int),
    fixed "lsub" .insn 2 1 (.compute FieldType.long),
    fixed "fsub" .insn 2 1 (.compute FieldType.float),
    fixed "dsub" .insn 2 1 (.compute FieldType.double),
    fixed "imul" .insn 2 1 (.compute FieldType.int),
    fixed "lmul" .insn 2 1 (.compute FieldType.long),
    fixed "fmul" .insn 2 1 (.compute FieldType.float),
    fixed "dmul" .insn 2 1 (.compute FieldType.double),
    fixed "idiv" .insn 2 1 (.compute FieldType.int),
    fixed "ldiv" .insn 2 1 (.compute FieldType.long),
    fixed "fdiv" .insn 2 1 (.compute FieldType.float),
    fixed "ddiv" .insn 2 1 (.compute FieldType.double),
    fixed "irem" .insn 2 1 (.compute FieldType.int),
    fixed "lrem" .insn 2 1 (.compute FieldType.long),
    fixed "frem" .insn 2 1 (.compute FieldType.float),
    fixed "drem" .insn 2 1 (.compute FieldType.double),
    fixed "ineg" .insn 1 1 (.compute FieldType.int),
    fixed "lneg" .insn 1 1 (.compute FieldType.long),
    fixed "fneg" .insn 1 1 (.compute FieldType.float),
    fixed "dneg" .insn 1 1 (.compute FieldType.double),
    fixed "ishl" .insn 2 1 (.compute FieldType.int),
    fixed "lshl" .insn 2 1 (.compute FieldType.long),
    fixed "ishr" .insn 2 1 (.compute FieldType.int),
    fixed "lshr" .insn 2 1 (.compute FieldType.long),
    fixed "iushr" .insn 2 1 (.compute FieldType.int),
    fixed "lushr" .insn 2 1 (.compute FieldType.long),
    fixed "iand" .insn 2 1 (.compute FieldType.int),
    fixed "land" .insn 2 1 (.compute FieldType.long),
    fixed "ior" .insn 2 1 (.compute FieldType.int),
    fixed "lor" .insn 2 1 (.compute FieldType.long),
    fixed "ixor" .insn 2 1 (.compute FieldType.int),
    fixed "lxor" .insn 2 1 (.compute FieldType.long),
    fixed "iinc" .iinc 0 0 .increment]

/-- Conversions and comparisons, from opcode 0x85. -/
def conversions : List Operation :=
  [fixed "i2l" .insn 1 1 (.compute FieldType.long),
    fixed "i2f" .insn 1 1 (.compute FieldType.float),
    fixed "i2d" .insn 1 1 (.compute FieldType.double),
    fixed "l2i" .insn 1 1 (.compute FieldType.int),
    fixed "l2f" .insn 1 1 (.compute FieldType.float),
    fixed "l2d" .insn 1 1 (.compute FieldType.double),
    fixed "f2i" .insn 1 1 (.compute FieldType.int),
    fixed "f2l" .insn 1 1 (.compute FieldType.long),
    fixed "f2d" .insn 1 1 (.compute FieldType.double),
    fixed "d2i" .insn 1 1 (.compute FieldType.int),
    fixed "d2l" .insn 1 1 (.compute FieldType.long),
    fixed "d2f" .insn 1 1 (.compute FieldType.float),
    fixed "i2b" .insn 1 1 (.compute FieldType.byte),
    fixed "i2c" .insn 1 1 (.compute FieldType.char),
    fixed "i2s" .insn 1 1 (.compute FieldType.short),
    fixed "lcmp" .insn 2 1 (.compute FieldType.int),
    fixed "fcmpl" .insn 2 1 (.compute FieldType.int),
    fixed "fcmpg" .insn 2 1 (.compute FieldType.int),
    fixed "dcmpl" .insn 2 1 (.compute FieldType.int),
    fixed "dcmpg" .insn 2 1 (.compute FieldType.int)]

/-- Control transfer, from opcode 0x99. -/
def control : List Operation :=
  [fixed "ifeq" .jump 1 0 .drop,
    fixed "ifne" .jump 1 0 .drop,
    fixed "iflt" .jump 1 0 .drop,
    fixed "ifge" .jump 1 0 .drop,
    fixed "ifgt" .jump 1 0 .drop,
    fixed "ifle" .jump 1 0 .drop,
    fixed "if_icmpeq" .jump 2 0 .drop,
    fixed "if_icmpne" .jump 2 0 .drop,
    fixed "if_icmplt" .jump 2 0 .drop,
    fixed "if_icmpge" .jump 2 0 .drop,
    fixed "if_icmpgt" .jump 2 0 .drop,
    fixed "if_icmple" .jump 2 0 .drop,
    fixed "if_acmpeq" .jump 2 0 .drop,
    fixed "if_acmpne" .jump 2 0 .drop,
    fixed "goto" .jump 0 0 .idle,
    fixed "jsr" .jump 0 1 .callSubroutine,
    fixed "ret" .var 0 0 .idle,
    fixed "tableswitch" .tableSwitch 1 0 .drop,
    fixed "lookupswitch" .lookupSwitch 1 0 .drop,
    fixed "ireturn" .insn 1 0 .returnValue,
    fixed "lreturn" .insn 1 0 .returnValue,
    fixed "freturn" .insn 1 0 .returnValue,
    fixed "dreturn" .insn 1 0 .returnValue,
    fixed "areturn" .insn 1 0 .returnValue,
    fixed "return" .insn 0 0 .idle]

/-- Fields, calls and references, from opcode 0xb2. -/
def references : List Operation :=
  [fixed "getstatic" .field 0 1 .readField,
    fixed "putstatic" .field 1 0 .drop,
    fixed "getfield" .field 1 1 .readField,
    fixed "putfield" .field 2 0 .drop,
    dynamic "invokevirtual" .method .invoke,
    dynamic "invokespecial" .method .invoke,
    dynamic "invokestatic" .method .invoke,
    dynamic "invokeinterface" .method .invoke,
    dynamic "invokedynamic" .invokeDynamic .invokeDynamic,
    fixed "new" .type 0 1 .allocate,
    fixed "newarray" .int 1 1 .newPrimitiveArray,
    fixed "anewarray" .type 1 1 .newReferenceArray,
    fixed "arraylength" .insn 1 1 (.compute FieldType.int),
    fixed "athrow" .insn 1 0 .drop,
    fixed "checkcast" .type 1 1 .cast,
    fixed "instanceof" .type 1 1 (.compute FieldType.boolean),
    fixed "monitorenter" .insn 1 0 .drop,
    fixed "monitorexit" .insn 1 0 .drop]

/-- Extended, from opcode 0xc4. -/
def extended : List Operation :=
  [fixed "wide" .insn 0 0 .idle,
    dynamic "multianewarray" .multiNewArray .newMultiArray,
    fixed "ifnull" .jump 1 0 .drop,
    fixed "ifnonnull" .jump 1 0 .drop,
    fixed "goto_w" .jump 0 0 .idle,
    fixed "jsr_w" .jump 0 1 .callSubroutine]

/-- All operations, in the order of their opcodes. -/
def all : List Operation :=
  constants ++ loads ++ stores ++ shuffles ++ arithmetic ++ conversions ++ control ++
    references ++ extended

end Operation

namespace Opcode

def operation? (op : Opcode) : Option Operation := Operation.all[op.code.toNat]?

def isDefined (op : Opcode) : Bool := op.operation?.isSome

/-- The mnemonic, or the number of an opcode that is not in use. -/
def toText (op : Opcode) : Text :=
  match op.operation? with
  | some o => o.mnemonic
  | none => "opcode 0x" ++ Text.ofHex 1 op.code.toNat ++ " not defined"

/-- The form the opcode is delivered in. -/
def form (op : Opcode) : Form :=
  match op.operation? with
  | some o => o.form
  | none => .insn

/-- Entries taken and left, where the opcode alone fixes them. -/
def counts? (op : Opcode) : Option (Nat × Nat) := op.operation?.bind (·.counts)

/-- The opcode with the given mnemonic. -/
def ofMnemonic? (name : Text) : Option Opcode :=
  (Operation.all.findIdx? (·.mnemonic = name)).map fun i => ⟨i.toUInt8⟩

end Opcode

end OperandStack
