import OperandStack.Engine.Replay
import OperandStack.Number.Word
import OperandStack.Text.Blank

/-!
# Code lines

A line of a method body is an instruction in the usual disassembler writing, or a label
definition such as `L1:`. `Line.read` looks at one line alone, and knows labels by their names. Of a
switch that is rejected it tells the labels that have been met by then.
-/

namespace OperandStack

/-- Why a line was rejected. -/
inductive LineProblem where
  | blank
  | namelessLabel
  | repeatedLabel (name : Text)
  | mnemonic (word : Text)
  | operandCount (op : Opcode) (given wanted : Nat)
  | callSiteCount (op : Opcode) (given : Nat)
  | operand (op : Opcode) (word : Text)
  | slot (op : Opcode) (word : Text)
  | increment (words : List Text)
  | member (word : Text)
  | tableShape
  | tableRange (low high : Text)
  | tableCount (given : Nat) (low high : Int)
  | lookupShape
  | lookupCase (word : Text)
  | lookupOrder (key : Int)
  | dimensions (word : Text)
  | noConstant (op : Opcode)
  | stringConstant (op : Opcode) (word : Text)
  | integer (op : Opcode) (word : Text) (why : Numeral.Fault)
  | decimal (op : Opcode) (word : Text) (why : Numeral.Fault)
  | form (op : Opcode)
deriving DecidableEq, Repr

namespace LineProblem

def countMessage (op : Opcode) (given : Nat) (wanted : Text) : Text :=
  op.toText ++ ": wrong number of operands: have " ++ Text.ofNat given ++ ", want " ++ wanted

def message : LineProblem → Text
  | .blank => "empty line"
  | .namelessLabel => "empty label name"
  | .repeatedLabel name => "label " ++ name ++ " defined twice"
  | .mnemonic word => "unknown mnemonic " ++ Text.quote word
  | .operandCount op given wanted => countMessage op given (Text.ofNat wanted)
  | .callSiteCount op given => countMessage op given "2 or 4"
  | .operand op word => op.toText ++ ": bad operand " ++ Text.quote word
  | .slot op word => op.toText ++ ": bad local variable " ++ Text.quote word
  | .increment words => "iinc: bad operands " ++ Text.quote (Text.join " " words)
  | .member word => "bad member reference " ++ Text.quote word ++ ", want Owner.name"
  | .tableShape => "tableswitch: want min max labels... default label"
  | .tableRange low high => "tableswitch: bad range " ++ low ++ ".." ++ high
  | .tableCount given low high =>
    "tableswitch: " ++ Text.ofNat given ++ " labels for range " ++ Text.ofInt low ++ ".." ++
      Text.ofInt high
  | .lookupShape => "lookupswitch: want key:label... default label"
  | .lookupCase word => "lookupswitch: bad case " ++ Text.quote word
  | .lookupOrder key => "lookupswitch: keys not ascending at " ++ Text.ofInt key
  | .dimensions word => "multianewarray: bad dimensions " ++ Text.quote word
  | .noConstant op => op.toText ++ ": missing constant"
  | .stringConstant op word => op.toText ++ ": bad string constant " ++ word
  | .integer op word why =>
    op.toText ++ ": strconv.ParseInt: parsing " ++ Text.quote word ++ ": " ++ why.message
  | .decimal op word why =>
    op.toText ++ ": strconv.ParseFloat: parsing " ++ Text.quote word ++ ": " ++ why.message
  | .form op => op.toText ++ ": unsupported instruction form"

end LineProblem

namespace Line

/-! ## Operands -/

/-- Splits `java/lang/System.out` at the last dot. -/
def splitMember (word : Text) : Except LineProblem (Text × Text) :=
  match Text.cutLast? (Text.byte '.') word with
  | some (owner, name) =>
    if owner.isEmpty || name.isEmpty then .error (.member word) else .ok (owner, name)
  | none => .error (.member word)

/-- Names of the element types of primitive arrays, with their codes. -/
def arrayTypes : List (Text × Int) :=
  [("boolean", 4), ("char", 5), ("float", 6), ("double", 7), ("byte", 8), ("short", 9),
    ("int", 10), ("long", 11)]

def readInteger (op : Opcode) (word : Text) : Except LineProblem Int :=
  match if op = .newarray then arrayTypes.lookup word else none with
  | some code => .ok code
  | none =>
    match Numeral.int? word with
    | some n => .ok n
    | none => .error (.operand op word)

def readTable (args : List Text) : Except LineProblem (Instruction Text) :=
  match args, args.reverse with
  | low :: high :: _ :: _ :: _, fallback :: mark :: _ =>
    if mark ≠ "default" then .error .tableShape
    else match Numeral.int? low, Numeral.int? high with
      | some lo, some hi =>
        if hi < lo then .error (.tableRange low high)
        else
          let targets := (args.drop 2).take (args.length - 4)
          if (targets.length : Int) ≠ word64 (hi - lo + 1) then
            .error (.tableCount targets.length lo hi)
          else .ok (.tableSwitch lo hi (targets.map some) (some fallback))
      | _, _ => .error (.tableRange low high)
  | _, _ => .error .tableShape

/-- Reads one case of a switch: a key, a colon and a label. -/
def readCase? (word : Text) : Option (Int × Text) := do
  let (key, target) ← Text.cut? (Text.byte ':') word
  let n ← Numeral.int? key
  if target.isEmpty then none
  return (n, target)

/-- Reads cases with ascending keys, up to the first bad one. -/
def readCases (last : Option Int) : List Text → List (Int × Text) × Option LineProblem
  | [] => ([], none)
  | word :: rest =>
    match readCase? word with
    | none => ([], some (.lookupCase word))
    | some (key, target) =>
      if last.any (key ≤ ·) then ([], some (.lookupOrder key))
      else
        let (cases, problem) := readCases (some key) rest
        ((key, target) :: cases, problem)

/-! ## Constants -/

def startsNumber : Text → Bool
  | [] => false
  | b :: _ => b = Text.byte '-' || b = Text.byte '+' || b = Text.byte '.' || Numeral.isDigit b

def readLong (op : Opcode) (t : Text) : Except LineProblem Literal :=
  match Numeral.readInt 64 t with
  | .ok n => .ok (.long (Int64.ofInt n))
  | .error why => .error (.integer op t why)

def readInt (op : Opcode) (t : Text) : Except LineProblem Literal :=
  match Numeral.readInt 32 t with
  | .ok n => .ok (.int (Int32.ofInt n))
  | .error why => .error (.integer op t why)

def readFloat (op : Opcode) (t : Text) : Except LineProblem Literal :=
  match Format.single.read t with
  | .ok bits => .ok (.float bits.toUInt32)
  | .error why => .error (.decimal op t why)

def readDouble (op : Opcode) (t : Text) : Except LineProblem Literal :=
  match Format.double.read t with
  | .ok bits => .ok (.double bits.toUInt64)
  | .error why => .error (.decimal op t why)

/-- Bytes that make a number without a suffix a decimal one. -/
def decimalMarks : Text := ".eE"

/-- Reads a number. A letter at its end tells the type; otherwise the width of the operation
does. -/
def readNumber (op : Opcode) (t : Text) : Except LineProblem Literal :=
  let last := (t.getLast?.map Numeral.lowerByte).getD 0
  let wide := op = .ldc2W
  if last = Text.byte 'l' then readLong op t.dropLast
  else if last = Text.byte 'f' then readFloat op t.dropLast
  else if last = Text.byte 'd' then readDouble op t.dropLast
  else if t.any decimalMarks.contains then if wide then readDouble op t else readFloat op t
  else if wide then readLong op t else readInt op t

/-- Reads a constant: a quoted string, a number or a class literal. -/
def readConstant (op : Opcode) (t : Text) : Except LineProblem Literal :=
  if t.isEmpty then .error (.noConstant op)
  else if t.startsWith "\"" then
    match Text.unquote? t with
    | some s => .ok (.string s)
    | none => .error (.stringConstant op t)
  else if startsNumber t then readNumber op t
  else .ok (.classRef t)

/-! ## Instructions -/

def readMethod (op : Opcode) (word desc : Text) : Except LineProblem (Instruction Text) := do
  let (owner, name) ← splitMember word
  return .method op owner name desc (op = .invokeinterface)

def readField (op : Opcode) (word desc : Text) : Except LineProblem (Instruction Text) := do
  let (owner, name) ← splitMember word
  return .field op owner name desc

/-- The tag of a handle that calls a static method. -/
def staticTag : Int := 6

def readCallSite (op : Opcode) (args : List Text) : Except LineProblem (Instruction Text) :=
  match args with
  | [name, desc] => .ok (.invokeDynamic name desc {})
  | [name, desc, word, bootstrap] => do
    let (owner, member) ← splitMember word
    return .invokeDynamic name desc ⟨staticTag, owner, member, bootstrap⟩
  | _ => .error (.callSiteCount op args.length)

/-- Reads the operands of every form but constants and switches on keys. -/
def readOperands (op : Opcode) (args : List Text) : Except LineProblem (Instruction Text) :=
  let count (wanted : Nat) : LineProblem := .operandCount op args.length wanted
  match op.form, args with
  | .insn, [] => .ok (.plain op)
  | .insn, _ => .error (count 0)
  | .int, [word] => return .int op (← readInteger op word)
  | .int, _ => .error (count 1)
  | .var, [word] =>
    match Numeral.int? word with
    | some slot => .ok (.var op slot)
    | none => .error (.slot op word)
  | .var, _ => .error (count 1)
  | .iinc, [slot, inc] =>
    match Numeral.int? slot, Numeral.int? inc with
    | some slot, some inc => .ok (.iinc slot inc)
    | _, _ => .error (.increment args)
  | .iinc, _ => .error (count 2)
  | .type, [name] => .ok (.type op name)
  | .type, _ => .error (count 1)
  | .field, [word, desc] => readField op word desc
  | .field, _ => .error (count 2)
  | .method, [word, desc] => readMethod op word desc
  | .method, _ => .error (count 2)
  | .invokeDynamic, _ => readCallSite op args
  | .jump, [target] => .ok (.jump op (some target))
  | .jump, _ => .error (count 1)
  | .tableSwitch, _ => readTable args
  | .multiNewArray, [desc, word] =>
    match Numeral.int? word with
    | some dims => .ok (.multiNewArray desc dims)
    | none => .error (.dimensions word)
  | .multiNewArray, _ => .error (count 2)
  | _, _ => .error (.form op)

/-- What a line was read as. -/
structure Reading where
  /-- The names of labels that were met before the line was rejected. -/
  met : List Text
  result : Except LineProblem (CodeElement Text)

namespace Reading

def rejected (p : LineProblem) : Reading := ⟨[], .error p⟩

def ofInstruction : Except LineProblem (Instruction Text) → Reading
  | .ok ins => ⟨[], .ok (.instruction ins)⟩
  | .error p => rejected p

def ofLabel (name : Text) : Reading := ⟨[], .ok (.label name)⟩

end Reading

/-- Reads a switch on keys. -/
def readLookup (args : List Text) : Reading :=
  match args.reverse with
  | fallback :: mark :: cases =>
    if mark ≠ "default" then .rejected .lookupShape
    else match readCases none cases.reverse with
      | (cases, none) =>
        .ofInstruction (.ok (.lookupSwitch (cases.map (·.1)) (cases.map fun c => some c.2)
          (some fallback)))
      | (cases, some p) => ⟨fallback :: cases.map (·.2), .error p⟩
  | _ => .rejected .lookupShape

/-- The letter a character becomes in lower case, for the characters whose lower case is an
ASCII letter. -/
def lowerChar (c : Char) : Char :=
  if c = '\u212A' then 'k' else if c = '\u0130' then 'i' else c.toLower

/-- A mnemonic may be written in either case. -/
def lowerMnemonic (word : Text) : Text :=
  (Utf8.pieces word).flatMap fun
    | .char c => Text.ofChar (lowerChar c)
    | .stray b => [b]

/-- A line with a colon at its end and no blank in it defines a label. -/
def isDefinition (line : Text) : Bool :=
  line.endsWith ":" && !line.contains (Text.byte ' ') && !line.contains (Text.byte '\t')

/-- Reads the operands of an operation as they stand behind its mnemonic. -/
def readInstruction (op : Opcode) (rest : Text) : Reading :=
  match op.form with
  | .ldc => .ofInstruction (return .ldc (some op) (← readConstant op rest))
  | .lookupSwitch => readLookup (Text.fields rest)
  | _ => .ofInstruction (readOperands op (Text.fields rest))

/-- Reads a line without white space at its ends. -/
def readTrimmed (line : Text) : Reading :=
  if isDefinition line then
    if line.dropLast.isEmpty then .rejected .namelessLabel else .ofLabel line.dropLast
  else match Text.fields line with
    | [] => .rejected .blank
    | word :: _ =>
      match Opcode.ofMnemonic? (lowerMnemonic word) with
      | some op => readInstruction op (Text.trim (line.drop word.length))
      | none => .rejected (.mnemonic word)

/-- Reads a line. -/
def read (line : Text) : Reading := readTrimmed (Text.trim line)

end Line

end OperandStack
