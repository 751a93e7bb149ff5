/-!
# Binary floating point

A floating point number is kept as the bits of its interchange format. `Format.classify`
tells which number the bits stand for, and `Format.round` finds the bits of the number
nearest to a fraction, a tie going to the even one.
-/

namespace OperandStack

/-- Widths of the fraction and exponent fields; one more bit holds the sign. -/
structure Format where
  fraction : Nat
  exponent : Nat
deriving DecidableEq, Repr

namespace Format

def single : Format := ⟨23, 8⟩

def double : Format := ⟨52, 11⟩

/-- The exponent field of infinities and NaNs. -/
def top (f : Format) : Nat := Nat.pow 2 f.exponent - 1

/-- The exponent of the unit in the last place of the smallest numbers. -/
def least (f : Format) : Int := 2 - Nat.pow 2 (f.exponent - 1) - f.fraction

def signBit (f : Format) (negative : Bool) : Nat :=
  if negative then Nat.pow 2 (f.fraction + f.exponent) else 0

end Format

/-- A number of a binary format without its sign: `mantissa * 2 ^ scale`. `step` tells that
the number below is only half as far away as the number above. -/
structure Magnitude where
  mantissa : Nat
  scale : Int
  step : Bool
deriving DecidableEq, Repr

inductive FloatClass where
  | nan
  | infinite (negative : Bool)
  | finite (negative : Bool) (m : Magnitude)
deriving DecidableEq, Repr

namespace Format

def classify (f : Format) (bits : Nat) : FloatClass :=
  let fraction := bits % Nat.pow 2 f.fraction
  let exponent := bits / Nat.pow 2 f.fraction % Nat.pow 2 f.exponent
  let negative := bits / Nat.pow 2 (f.fraction + f.exponent) % 2 = 1
  if exponent = f.top then
    if fraction = 0 then .infinite negative else .nan
  else if exponent = 0 then .finite negative ⟨fraction, f.least, false⟩
  else
    let scale := f.least + (exponent - 1 : Nat)
    .finite negative ⟨Nat.pow 2 f.fraction + fraction, scale, fraction = 0 && 1 < exponent⟩

/-- `num / den` to the nearest integer, a tie going to the even one. -/
def roundDiv (num den : Nat) : Nat :=
  let q := num / den
  let r := num % den
  if 2 * r < den then q
  else if den < 2 * r then q + 1
  else q + q % 2

/-- `num * 2 ^ (-scale) / den` to the nearest integer. -/
def scaledRound (num den : Nat) (scale : Int) : Nat :=
  match scale with
  | .ofNat k => roundDiv num (den * Nat.pow 2 k)
  | .negSucc k => roundDiv (num * Nat.pow 2 (k + 1)) den

/-- The bits of the number nearest to `num / den`, without a sign; none if it is too large.
The unit in the last place is chosen so that the quotient has one bit more than the
fraction field, or is the least unit. -/
def round (f : Format) (num den : Nat) : Option Nat :=
  if num = 0 then some 0
  else
    let high : Int := (Nat.log2 num : Int) - Nat.log2 den
    let reached : Bool := match high with
      | .ofNat k => den * Nat.pow 2 k ≤ num
      | .negSucc k => den ≤ num * Nat.pow 2 (k + 1)
    let exponent := if reached then high else high - 1
    let scale := max f.least (exponent - f.fraction)
    let m := scaledRound num den scale
    let bits := if m < Nat.pow 2 f.fraction then m
      else (scale - f.least).toNat * Nat.pow 2 f.fraction + m
    if bits < f.top * Nat.pow 2 f.fraction then some bits else none

end Format

end OperandStack
