import OperandStack.Text.Basic

/-!
# Reading integers

Decimal integers with an optional sign, and integer literals whose notation tells the base.
Reading stops at the first byte that decides the outcome, so a number is out of range as
soon as its digits so far are, whatever follows them.
-/

namespace OperandStack.Numeral

inductive Fault where
  | malformed
  | outOfRange
deriving DecidableEq, Repr

def Fault.message : Fault → Text
  | .malformed => "invalid syntax"
  | .outOfRange => "value out of range"

/-- ASCII letters in lower case; other bytes unchanged. -/
def lowerByte (b : UInt8) : UInt8 := if 65 ≤ b && b ≤ 90 then b + 32 else b

def isDigit (b : UInt8) : Bool := 48 ≤ b && b ≤ 57

/-- The digit a byte stands for: `0` to `9`, then letters in either case. -/
def digit? (b : UInt8) : Option Nat :=
  let c := lowerByte b
  if isDigit b then some (b.toNat - 48)
  else if 97 ≤ c && c ≤ 122 then some (c.toNat - 87)
  else none

/-- Reads the digits of a number below `2 ^ bits`, starting from the value `n` read so far. -/
def readDigits (base bits : Nat) : Nat → Text → Except Fault Nat
  | n, [] => .ok n
  | n, b :: t =>
    match digit? b with
    | some d =>
      if base ≤ d then .error .malformed
      else if Nat.pow 2 bits ≤ n * base + d then .error .outOfRange
      else readDigits base bits (n * base + d) t
    | none => .error .malformed

/-- Reads a decimal number below `2 ^ bits`, without a sign. -/
def readUnsigned (bits : Nat) (t : Text) : Except Fault Nat :=
  if t.isEmpty then .error .malformed else readDigits 10 bits 0 t

/-- Gives a magnitude its sign, if the result is a `bits`-bit integer. -/
def withSign (negative : Bool) (bits n : Nat) : Except Fault Int :=
  if negative then if n ≤ Nat.pow 2 (bits - 1) then .ok (-n) else .error .outOfRange
  else if n < Nat.pow 2 (bits - 1) then .ok n else .error .outOfRange

/-- Splits off a sign; true means negative. -/
def splitSign : Text → Bool × Text
  | [] => (false, [])
  | b :: t =>
    if b = Text.byte '-' then (true, t)
    else if b = Text.byte '+' then (false, t)
    else (false, b :: t)

/-- Reads a decimal `bits`-bit integer with an optional sign. -/
def readInt (bits : Nat) (t : Text) : Except Fault Int := do
  let (negative, digits) := splitSign t
  withSign negative bits (← readUnsigned bits digits)

/-- Reads a 64-bit decimal integer. -/
def int? (t : Text) : Option Int := (readInt 64 t).toOption

/-- What the byte before stands for, while underscores are checked. -/
inductive Before where
  | digit
  | underscore
  | other

/-- Underscores stand between digits only; a base mark counts as a digit. -/
def underscoresFit (hex : Bool) : Before → Text → Bool
  | before, [] => match before with
    | .underscore => false
    | _ => true
  | before, b :: t =>
    let c := lowerByte b
    if isDigit b || (hex && 97 ≤ c && c ≤ 102) then underscoresFit hex .digit t
    else match before, b == Text.byte '_' with
      | .digit, true => underscoresFit hex .underscore t
      | _, true => false
      | .underscore, false => false
      | _, false => underscoresFit hex .other t

/-- Checks the underscores of an unsigned literal. -/
def literalUnderscoresFit : Text → Bool
  | a :: b :: t =>
    let c := lowerByte b
    if a = Text.byte '0' && (c = Text.byte 'b' || c = Text.byte 'o' || c = Text.byte 'x') then
      underscoresFit (c == Text.byte 'x') .digit t
    else underscoresFit false .other (a :: b :: t)
  | t => underscoresFit false .other t

/-- The base of an unsigned literal, and its digits: `0x`, `0o` and `0b` mark the base, a
leading `0` means octal. -/
def literalBase : Text → Nat × Text
  | a :: b :: c :: t =>
    if a = Text.byte '0' then
      let m := lowerByte b
      if m = Text.byte 'x' then (16, c :: t)
      else if m = Text.byte 'o' then (8, c :: t)
      else if m = Text.byte 'b' then (2, c :: t)
      else (8, b :: c :: t)
    else (10, a :: b :: c :: t)
  | a :: t => if a = Text.byte '0' then (8, t) else (10, a :: t)
  | [] => (10, [])

/-- Reads an integer literal below `2 ^ 64`, without a sign. -/
def readMagnitude (body : Text) : Except Fault Nat := do
  if body.isEmpty then throw .malformed
  let (base, digits) := literalBase body
  let underscore := Text.byte '_'
  let n ← readDigits base 64 0 (digits.filter (· ≠ underscore))
  if digits.contains underscore && !literalUnderscoresFit body then throw .malformed
  return n

/-- Reads a 64-bit integer literal with an optional sign. -/
def readLiteral (t : Text) : Except Fault Int := do
  let (negative, body) := splitSign t
  withSign negative 64 (← readMagnitude body)

end OperandStack.Numeral
