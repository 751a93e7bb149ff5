import OperandStack.Text.Quoted

/-!
# Type descriptors

A field type is a primitive code, a class reference `L…;` or an array of either. A method
descriptor lists the field types of its parameters in parentheses, followed by the type of
its result, which may also be void. This module names the codes and the ways in which a
text can fail to be a descriptor.
-/

namespace OperandStack

namespace FieldType

def byte : Text := "B"
def char : Text := "C"
def double : Text := "D"
def float : Text := "F"
def int : Text := "I"
def long : Text := "J"
def short : Text := "S"
def boolean : Text := "Z"
def object : Text := "Ljava/lang/Object;"
def string : Text := "Ljava/lang/String;"

/-- The result type of a method without a result; not a field type. -/
def void : Text := "V"

/-- Codes of the primitive types. -/
def primitiveCodes : Text := "BCDFIJSZ"

def isPrimitiveCode (b : UInt8) : Bool := primitiveCodes.contains b

/-- Long and double take two words. -/
def isWide (sig : Text) : Bool := sig = long || sig = double

/-- Words of local storage a value of the type takes. -/
def slotSize (sig : Text) : Nat := if isWide sig then 2 else if sig = void then 0 else 1

def isArray (sig : Text) : Bool := sig.head? = some (Text.byte '[')

def isReference (sig : Text) : Bool := isArray sig || sig.head? = some (Text.byte 'L')

/-- The type of the elements of an array type. -/
def element? (sig : Text) : Option Text := if isArray sig then some sig.tail else none

def arrayOf (sig : Text) : Text := Text.byte '[' :: sig

/-- The field type of a class named as in type operands; array types are written as field
types already. -/
def ofClass (name : Text) : Text := if isArray name then name else "L" ++ name ++ ";"

/-- The class name inside a class reference. -/
def className? (sig : Text) : Option Text :=
  if 3 ≤ sig.length && sig.head? = some (Text.byte 'L') && sig.getLast? = some (Text.byte ';') then
    some sig.tail.dropLast
  else none

/-- The number of leading array marks. -/
def dimensions (sig : Text) : Nat := (sig.takeWhile (· = Text.byte '[')).length

end FieldType

/-- Why a text is not a descriptor. -/
inductive DescriptorProblem where
  | noOpening
  | noClosing
  | noResult
  | afterResult
  | afterField
  | tooManyDimensions
  | noElement
  | unterminatedClass
  | emptyClass
  | unexpectedCode (code : UInt8)
deriving DecidableEq, Repr

def DescriptorProblem.message : DescriptorProblem → Text
  | .noOpening => "missing '('"
  | .noClosing => "missing ')'"
  | .noResult => "missing return type"
  | .afterResult => "trailing characters after return type"
  | .afterField => "trailing characters after field type"
  | .tooManyDimensions => "more than 255 array dimensions"
  | .noElement => "missing element type"
  | .unterminatedClass => "unterminated class reference"
  | .emptyClass => "empty class name"
  | .unexpectedCode code => "unexpected type code " ++ Text.quoteByte code

/-- A problem and the offset at which it shows. -/
structure DescriptorFault where
  offset : Nat
  problem : DescriptorProblem
deriving DecidableEq, Repr

def DescriptorFault.shift (k : Nat) (f : DescriptorFault) : DescriptorFault :=
  { f with offset := k + f.offset }

/-- The refusal of a whole descriptor. -/
structure DescriptorError where
  descriptor : Text
  fault : DescriptorFault
deriving DecidableEq, Repr

def DescriptorError.message (e : DescriptorError) : Text :=
  "malformed descriptor " ++ Text.quote e.descriptor ++ " at offset " ++
    Text.ofNat e.fault.offset ++ ": " ++ e.fault.problem.message

end OperandStack
