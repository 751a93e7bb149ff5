import OperandStack.Number.Written
import OperandStack.Yaml.Node
import OperandStack.Yaml.Timestamp

/-!
# Kinds of scalars

What a plain scalar means follows from its text; a quoted scalar is always a string. The
first byte tells which meanings are tried.
-/

namespace OperandStack.Yaml

inductive ScalarKind where
  | null
  | bool
  | int
  | float
  | timestamp
  | merge
  | string
deriving DecidableEq, Repr

namespace ScalarKind

def tag : ScalarKind → Text
  | .null => "!!null"
  | .bool => "!!bool"
  | .int => "!!int"
  | .float => "!!float"
  | .timestamp => "!!timestamp"
  | .merge => "!!merge"
  | .string => "!!str"

/-- Texts with a meaning of their own. -/
def words : List (Text × ScalarKind) :=
  [("", .null), ("~", .null), ("null", .null), ("Null", .null), ("NULL", .null),
    ("true", .bool), ("True", .bool), ("TRUE", .bool),
    ("false", .bool), ("False", .bool), ("FALSE", .bool),
    (".nan", .float), (".NaN", .float), (".NAN", .float),
    (".inf", .float), (".Inf", .float), (".INF", .float),
    ("+.inf", .float), ("+.Inf", .float), ("+.INF", .float),
    ("-.inf", .float), ("-.Inf", .float), ("-.INF", .float),
    ("<<", .merge)]

/-- Integer literals, without a sign up to 64 bits. -/
def isInt (t : Text) : Bool :=
  (Numeral.readLiteral t).toOption.isSome || (Numeral.readMagnitude t).toOption.isSome

/-- Digits in the base that a mark in front of them tells. Behind the mark they may have a
sign of their own, if none stands before it. -/
def isMarked (mark : Text) (base : Nat) (t : Text) : Bool :=
  let signed (t : Text) : Bool :=
    let (negative, digits) := Numeral.splitSign t
    !digits.isEmpty &&
      ((Numeral.readDigits base 64 0 digits).bind (Numeral.withSign negative 64)).toOption.isSome
  match Text.stripHead? mark t with
  | some digits => signed digits
  | none =>
    match (Text.stripHead? "-" t).bind (Text.stripHead? mark) with
    | some digits => signed (Text.byte '-' :: digits)
    | none => false

/-- Skips an exponent, if there is one. -/
def skipExponent (t : Text) : Text :=
  match t with
  | e :: rest =>
    if Numeral.lowerByte e = Text.byte 'e' then
      let digits := (Numeral.splitSign rest).2
      if (digits.takeWhile Numeral.isDigit).isEmpty then t else digits.dropWhile Numeral.isDigit
    else t
  | [] => []

/-- Digits, a fraction and an exponent: a fraction may stand alone, and end at its point if
digits stand before it. -/
def isDecimal (t : Text) : Bool :=
  let body := (Numeral.splitSign t).2
  let whole := body.takeWhile Numeral.isDigit
  let after := body.drop whole.length
  match Text.stripHead? "." after with
  | some rest =>
    let fraction := rest.takeWhile Numeral.isDigit
    (!whole.isEmpty || !fraction.isEmpty) && (skipExponent (rest.drop fraction.length)).isEmpty
  | none => !whole.isEmpty && (skipExponent after).isEmpty

def isFloat (t : Text) : Bool := (Format.double.read t).toOption.isSome

/-- The kind of a text that starts with a sign or a digit. -/
def ofNumeric (t : Text) : ScalarKind :=
  let plain := t.filter (· ≠ Text.byte '_')
  if Timestamp.fits t then .timestamp
  else if isInt plain then .int
  else if isDecimal plain && isFloat plain then .float
  else if isMarked "0b" 2 plain || isMarked "0o" 8 plain then .int
  else .string

def ofPlain (t : Text) : ScalarKind :=
  match words.lookup t with
  | some kind => kind
  | none =>
    match t with
    | [] => .null
    | b :: _ =>
      if b = Text.byte '.' then if isFloat t then .float else .string
      else if Numeral.isDigit b || b = Text.byte '+' || b = Text.byte '-' then ofNumeric t
      else .string

def ofScalar (style : ScalarStyle) (t : Text) : ScalarKind :=
  match style with
  | .plain => ofPlain t
  | .quoted => .string

end ScalarKind

end OperandStack.Yaml
