import OperandStack.Number.Calendar
import OperandStack.Text.Numeral

/-!
# Timestamps

A plain scalar is a timestamp if it is a date, or a date and a time of day. Month, day and the
parts of the time have one or two digits.
-/

namespace OperandStack.Timestamp

/-- Reads one or two digits. -/
def shortNumber? : Text → Option (Nat × Text)
  | a :: b :: t =>
    if !Numeral.isDigit a then none
    else if Numeral.isDigit b then some ((a.toNat - 48) * 10 + (b.toNat - 48), t)
    else some (a.toNat - 48, b :: t)
  | [a] => if Numeral.isDigit a then some (a.toNat - 48, []) else none
  | [] => none

/-- Reads one or two digits that form a number below `bound`. -/
def below? (bound : Nat) (t : Text) : Option (Nat × Text) := do
  let (n, rest) ← shortNumber? t
  if n < bound then some (n, rest) else none

/-- Reads a date and gives what follows it. -/
def date? (t : Text) : Option Text := do
  let digits := t.takeWhile Numeral.isDigit
  if digits.length ≠ 4 then none
  let year ← (Numeral.readUnsigned 64 digits).toOption
  let (month, t) ← below? 13 (← Text.stripHead? "-" (t.drop 4))
  let (day, t) ← shortNumber? (← Text.stripHead? "-" t)
  if 1 ≤ month && 1 ≤ day && day ≤ Calendar.daysIn year month then some t else none

/-- Skips a fraction of a second, if there is one. -/
def skipFraction : Text → Text
  | point :: d :: t =>
    if (point = Text.byte '.' || point = Text.byte ',') && Numeral.isDigit d then
      t.dropWhile Numeral.isDigit
    else point :: d :: t
  | t => t

/-- Reads a time of day and gives what follows it. -/
def time? (t : Text) : Option Text := do
  let (_, t) ← below? 24 t
  let (_, t) ← below? 60 (← Text.stripHead? ":" t)
  let (_, t) ← below? 60 (← Text.stripHead? ":" t)
  return skipFraction t

/-- Whether the text is a zone: `Z`, or an offset in hours and minutes. -/
def isZone (t : Text) : Bool :=
  match t with
  | [z] => z = Text.byte 'Z'
  | [sign, h, i, colon, m, n] =>
    (sign = Text.byte '+' || sign = Text.byte '-') && colon = Text.byte ':' &&
      [h, i, m, n].all Numeral.isDigit && (below? 25 [h, i]).isSome && (below? 61 [m, n]).isSome
  | _ => false

/-- Whether a text is a timestamp. A time after a `T` has a zone, one after spaces has
none. -/
def fits (t : Text) : Bool :=
  match date? t with
  | none => false
  | some [] => true
  | some (b :: rest) =>
    if b = Text.byte 'T' || b = Text.byte 't' then (time? rest).any isZone
    else if b = Text.byte ' ' then
      (time? (rest.dropWhile (· = Text.byte ' '))).any List.isEmpty
    else false

end OperandStack.Timestamp
