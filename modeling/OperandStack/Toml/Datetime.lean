import OperandStack.Number.Calendar
import OperandStack.Text.Basic

/-!
# Dates and times

A date or time that is well written may still not exist. `Datetime.fault?` tells which of its
parts is out of range: the day is looked at last, since it depends on the month and the year.
-/

namespace OperandStack.Toml.Datetime

inductive Part where
  | month
  | day
  | hour
  | minute
  | second
  | offsetHour
  | offsetMinute
deriving DecidableEq, Repr

def Part.name : Part → Text
  | .month => "month"
  | .day => "day"
  | .hour => "hour"
  | .minute => "minute"
  | .second => "second"
  | .offsetHour => "time zone offset hour"
  | .offsetMinute => "time zone offset minute"

/-- The number written in `n` digits from a place on. -/
def number (t : Text) (place n : Nat) : Nat :=
  ((t.drop place).take n).foldl (fun m b => m * 10 + (b.toNat - 48)) 0

/-- The first condition that holds. -/
def firstOf (faults : List (Bool × Part)) : Option Part :=
  (faults.find? (·.1)).map (·.2)

/-- What is wrong with the month of a date. -/
def monthFault? (t : Text) : Option Part :=
  let month := number t 5 2
  firstOf [(month = 0 || 12 < month, .month)]

/-- What is wrong with the day of a date whose month exists. -/
def dayFault? (t : Text) : Option Part :=
  let day := number t 8 2
  firstOf [(day = 0 || Calendar.daysIn (number t 0 4) (number t 5 2) < day, .day)]

/-- What is wrong with a time of day. -/
def clockFault? (t : Text) : Option Part :=
  firstOf [(23 < number t 0 2, .hour), (59 < number t 3 2, .minute), (59 < number t 6 2, .second)]

/-- What is wrong with the offset that ends a text, if it does not end with a `Z`. A minute
outweighs an hour. -/
def offsetFault? (t : Text) : Option Part :=
  if t.getLast? = some (Text.byte 'Z') then none
  else
    let zone := t.drop (t.length - 5)
    firstOf [(60 < number zone 3 2, .offsetMinute), (24 < number zone 0 2, .offsetHour)]

def fault? (t : Text) : Option Part :=
  if !t.contains (Text.byte ':') then (monthFault? t).or (dayFault? t)
  else if !t.contains (Text.byte '-') then clockFault? t
  else
    let clock := t.drop 11
    (monthFault? t).or <| (clockFault? clock).or <| (offsetFault? clock).or (dayFault? t)

end OperandStack.Toml.Datetime
