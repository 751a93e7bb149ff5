import OperandStack.Number.Shortest
import OperandStack.Text.Numeral

/-!
# Written floating point numbers

`Format.write` shows the bits of a number with the fewest digits that read back; large and
small exponents are written in scientific form. `Format.read` accepts decimal and
hexadecimal notation with underscores between digits, and the names of infinities.
-/

namespace OperandStack

/-- Numbers whose first digit has an exponent from `low` up to and not including `high` are
written in positional form; an exponent is written with a sign and at least `width`
digits. -/
structure Layout where
  low : Int
  high : Int
  width : Nat
deriving DecidableEq, Repr

/-- Scientific form starts at a million and below a ten thousandth. -/
def Layout.general : Layout := ⟨-4, 6, 2⟩

namespace Layout

def zeros (n : Nat) : Text := List.replicate n (Text.byte '0')

/-- The text of a decimal whose last digit is not zero. -/
def write (l : Layout) (d : Decimal) : Text :=
  let ds := Text.ofNat d.digits
  let exponent : Int := d.exponent + ds.length - 1
  if l.low ≤ exponent && exponent < l.high then
    let whole := (exponent + 1).toNat
    if exponent < 0 then "0." ++ zeros (-exponent - 1).toNat ++ ds
    else if ds.length ≤ whole then ds ++ zeros (whole - ds.length)
    else ds.take whole ++ "." ++ ds.drop whole
  else
    let mantissa := if ds.length ≤ 1 then ds else ds.take 1 ++ "." ++ ds.drop 1
    let power := Text.ofNat exponent.natAbs
    mantissa ++ (if exponent < 0 then "e-" else "e+") ++ zeros (l.width - power.length) ++ power

end Layout

namespace Format

/-- The text of the number with the given bits. -/
def write (f : Format) (bits : Nat) : Text :=
  match f.classify bits with
  | .nan => "NaN"
  | .infinite negative => if negative then "-Inf" else "+Inf"
  | .finite negative m =>
    let body := if m.mantissa = 0 then Text.ofString "0" else Layout.general.write m.shortest
    if negative then Text.byte '-' :: body else body

/-- Digits of a number being read: their value, how many stand after the point, and whether
there was a digit and a point at all. -/
structure Digits where
  value : Nat := 0
  places : Nat := 0
  digit : Bool := false
  point : Bool := false
deriving DecidableEq, Repr

/-- Reads digits, at most one point, and underscores. -/
def readDigits (base : Nat) : Digits → Text → Digits × Text
  | d, [] => (d, [])
  | d, b :: t =>
    if b = Text.byte '_' then readDigits base d t
    else if b = Text.byte '.' then
      if d.point then (d, b :: t) else readDigits base { d with point := true } t
    else match Numeral.digit? b with
      | some n =>
        if base ≤ n then (d, b :: t)
        else readDigits base
          ⟨d.value * base + n, if d.point then d.places + 1 else d.places, true, d.point⟩ t
      | none => (d, b :: t)

/-- Reads the digits of an exponent, which counts no further than five digits. -/
def readExponentDigits : Nat → Text → Nat × Text
  | e, [] => (e, [])
  | e, b :: t =>
    if b = Text.byte '_' then readExponentDigits e t
    else if Numeral.isDigit b then
      readExponentDigits (if e < 10000 then e * 10 + (b.toNat - 48) else e) t
    else (e, b :: t)

/-- Reads a signed exponent, which starts with a digit. -/
def readExponent? (t : Text) : Option (Int × Text) :=
  let (negative, t) := Numeral.splitSign t
  match t with
  | b :: _ =>
    if Numeral.isDigit b then
      let (e, rest) := readExponentDigits 0 t
      some (if negative then -(e : Int) else e, rest)
    else none
  | [] => none

/-- The bits nearest to `value * base ^ power`. -/
def roundPower (f : Format) (value base : Nat) (power : Int) : Option Nat :=
  match power with
  | .ofNat k => f.round (value * Nat.pow base k) 1
  | .negSucc k => f.round value (Nat.pow base (k + 1))

/-- Reads an unsigned decimal number. -/
def readDecimal (f : Format) (t : Text) : Except Numeral.Fault Nat :=
  let (d, rest) := readDigits 10 {} t
  let exponent? : Option (Int × Text) := match rest with
    | b :: after =>
      if Numeral.lowerByte b = Text.byte 'e' then readExponent? after else some (0, rest)
    | [] => some (0, [])
  match exponent? with
  | some (e, []) =>
    if !d.digit || (t.contains (Text.byte '_') && !Numeral.literalUnderscoresFit t) then
      .error .malformed
    else
      let power := e - d.places
      match f.roundPower d.value 10 power with
      | some bits => .ok bits
      | none => .error .outOfRange
  | _ => .error .malformed

/-- Reads an unsigned hexadecimal number without its mark. The exponent is a power of two
and may not be left out. -/
def readHexadecimal (f : Format) (t : Text) : Except Numeral.Fault Nat :=
  let (d, rest) := readDigits 16 {} t
  let exponent? : Option (Int × Text) := match rest with
    | b :: after => if Numeral.lowerByte b = Text.byte 'p' then readExponent? after else none
    | [] => none
  match exponent? with
  | some (e, []) =>
    if !d.digit || (t.contains (Text.byte '_') && !Numeral.underscoresFit true .digit t) then
      .error .malformed
    else
      match f.roundPower d.value 2 (e - 4 * d.places) with
      | some bits => .ok bits
      | none => .error .outOfRange
  | _ => .error .malformed

def infinityNames : List Text := ["inf", "infinity"]

/-- Reads a number and gives its bits. -/
def read (f : Format) (t : Text) : Except Numeral.Fault Nat := do
  let (negative, body) := Numeral.splitSign t
  let lower := body.map Numeral.lowerByte
  if infinityNames.contains lower then
    return f.signBit negative + f.top * Nat.pow 2 f.fraction
  if lower = "nan" && body = t then
    return f.top * Nat.pow 2 f.fraction + Nat.pow 2 (f.fraction - 1)
  let bits ← match body with
    | a :: b :: c :: rest =>
      if a = Text.byte '0' && Numeral.lowerByte b = Text.byte 'x' then
        f.readHexadecimal (c :: rest)
      else f.readDecimal body
    | _ => f.readDecimal body
  return f.signBit negative + bits

end Format

end OperandStack
