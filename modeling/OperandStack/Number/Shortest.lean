import OperandStack.Number.Binary

/-!
# Shortest decimals

The fewest decimal digits that read back as a given binary floating point number, and among
those the ones nearest to it. A number owns the interval of reals that round to it, the ends
included exactly when its mantissa is even. For one digit, two digits, and so on, the two
neighbours of the number on that decimal grid are tried in exact arithmetic.
-/

namespace OperandStack

/-- `digits` read as an integer, times ten to the power `exponent`. -/
structure Decimal where
  digits : Nat
  exponent : Int
deriving DecidableEq, Repr

namespace Decimal

def width (n : Nat) : Nat := (Nat.toDigits 10 n).length

/-- Takes zeros off the end of the digits; each digit dropped is one unit of fuel. -/
def stripZeros : Nat → Decimal → Decimal
  | 0, d => d
  | fuel + 1, d =>
    if d.digits ≠ 0 && d.digits % 10 = 0 then stripZeros fuel ⟨d.digits / 10, d.exponent + 1⟩
    else d

/-- The exponent of the first digit of `num / den`. -/
def leading (num den : Nat) : Int :=
  let e : Int := (width num : Int) - width den
  let reached : Bool := match e with
    | .ofNat k => den * Nat.pow 10 k ≤ num
    | .negSucc k => den ≤ num * Nat.pow 10 (k + 1)
  if reached then e else e - 1

end Decimal

namespace Magnitude

/-- Numerator and denominator of a quarter unit in the last place. -/
def quarter (m : Magnitude) : Nat × Nat :=
  match m.scale - 2 with
  | .ofNat k => (Nat.pow 2 k, 1)
  | .negSucc k => (1, Nat.pow 2 (k + 1))

/-- The interval that rounds to the number, in quarter units. -/
def interval (m : Magnitude) : Nat × Nat :=
  (4 * m.mantissa - (if m.step then 1 else 2), 4 * m.mantissa + 2)

/-- The best decimal on the grid of multiples of `10 ^ unit`, if one of the two neighbours
reads back as the number. -/
def onGrid? (m : Magnitude) (unit : Int) : Option Decimal :=
  let (num, den) := m.quarter
  let (a, b) := match unit with
    | .ofNat k => (num, den * Nat.pow 10 k)
    | .negSucc k => (num * Nat.pow 10 (k + 1), den)
  let (lo, hi) := m.interval
  let closed := m.mantissa % 2 = 0
  let below := 4 * m.mantissa * a / b
  let above := below + 1
  let belowFits := lo * a < below * b || (closed && lo * a = below * b)
  let aboveFits := above * b < hi * a || (closed && above * b = hi * a)
  if belowFits && aboveFits then
    some ⟨Format.roundDiv (4 * m.mantissa * a) b, unit⟩
  else if belowFits then some ⟨below, unit⟩
  else if aboveFits then some ⟨above, unit⟩
  else none

/-- Tries grids from coarse to fine, at most `fuel` of them. -/
def search (m : Magnitude) : Nat → Int → Decimal
  | 0, unit => ⟨0, unit⟩
  | fuel + 1, unit => (m.onGrid? unit).getD (search m fuel (unit - 1))

/-- The shortest decimal of a number other than zero. Seventeen digits always suffice. -/
def shortest (m : Magnitude) : Decimal :=
  let (num, den) := m.quarter
  let d := m.search 18 (Decimal.leading (4 * m.mantissa * num) den)
  d.stripZeros (Decimal.width d.digits)

end Magnitude

end OperandStack
