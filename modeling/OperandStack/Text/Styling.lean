import OperandStack.Text.Numeral
import OperandStack.Text.Width

/-!
# Styles on a terminal

A terminal takes some sequences of characters for a change of style or colour and shows
nothing for them. `shownWidth` is the width of a text without them.
-/

namespace OperandStack.Text

/-- Skips numbers of up to three digits with semicolons between them, of which there are at
most so many. -/
def skipStyles : Nat → Text → Option Text
  | 0, _ => none
  | fuel + 1, t =>
    let digits := t.takeWhile Numeral.isDigit
    if digits.isEmpty || 3 < digits.length then none
    else match t.drop digits.length with
      | b :: rest => if b = byte ';' then skipStyles fuel rest else some (b :: rest)
      | [] => some []

/-- What follows the sequence at the front of a text: an escape, a bracket, perhaps numbers,
and a letter. -/
def skipSequence? : Text → Option Text
  | 0x1B :: 0x5B :: t => do
    let last ← if t.head?.any Numeral.isDigit then skipStyles t.length t else some t
    match last with
    | b :: rest => if b = byte 'm' || b = byte '|' || b = byte 'K' then some rest else none
    | [] => none
  | _ => none

/-- Leaves out the sequences that change the style. -/
def unstyledFrom : Nat → Text → Text
  | 0, _ => []
  | _ + 1, [] => []
  | fuel + 1, b :: t =>
    match skipSequence? (b :: t) with
    | some rest => unstyledFrom fuel rest
    | none => b :: unstyledFrom fuel t

def unstyled (t : Text) : Text := unstyledFrom t.length t

def shownWidth (t : Text) : Nat := t.unstyled.width

end OperandStack.Text
