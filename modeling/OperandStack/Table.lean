import OperandStack.Text.Blank
import OperandStack.Text.Numeral
import OperandStack.Text.Styling

/-!
# Tables

A table has a header, rows and sometimes a caption. Every column is as wide as its widest
cell. Headings are centred, numbers stand on the right and all else on the left.
-/

namespace OperandStack

structure Table where
  header : List Text
  rows : List (List Text) := []
  caption : Option Text := none
deriving DecidableEq, Repr

namespace Table

def newline : UInt8 := Text.byte '\n'

def spaces (n : Nat) : Text := List.replicate n (Text.byte ' ')

/-- The lines of a cell. -/
def cellLines (cell : Text) : List Text := Text.splitOn newline cell

def cellWidth (cell : Text) : Nat := ((cellLines cell).map Text.shownWidth).foldl max 0

/-- The width of every column. -/
def widths (t : Table) : List Nat :=
  t.header.zipIdx.map fun (heading, i) =>
    (t.rows.map fun row => cellWidth (row.getD i [])).foldl max (cellWidth heading)

/-! ## Alignment -/

/-- Whether digits stand in groups of three behind commas. -/
def isGrouped : List Text → Bool
  | [] => false
  | first :: groups =>
    1 ≤ first.length && first.length ≤ 3 && first.all Numeral.isDigit &&
      groups.all fun g => g.length = 3 && g.all Numeral.isDigit

/-- A decimal number: a sign, digits that may be grouped by commas, and a fraction. -/
def isNumber (t : Text) : Bool :=
  let body := (Text.stripHead? "-" t).getD t
  let whole := body.takeWhile (· ≠ Text.byte '.')
  let fraction := body.drop whole.length
  let plain := !whole.isEmpty && whole.all Numeral.isDigit
  (plain || isGrouped (Text.splitOn (Text.byte ',') whole)) &&
    (fraction.isEmpty || (1 < fraction.length && (fraction.drop 1).all Numeral.isDigit))

def padRight (width : Nat) (t : Text) : Text := t ++ spaces (width - t.shownWidth)

def padLeft (width : Nat) (t : Text) : Text := spaces (width - t.shownWidth) ++ t

/-- Centred, with the smaller half of the gap on the left. -/
def centre (width : Nat) (t : Text) : Text :=
  let gap := width - t.shownWidth
  spaces (gap / 2) ++ t ++ spaces (gap - gap / 2)

def align (width : Nat) (t : Text) : Text :=
  if isNumber (Text.trim t) then padLeft width t else padRight width t

/-! ## Lines -/

/-- A line of the table from cells that fill their columns. -/
def fenced (cells : List Text) : Text :=
  "|" ++ Text.listed " " (cells.map fun c => (c ++ " |" : Text))

/-- A rule across the table. -/
def rule (ws : List Nat) : Text :=
  "+" ++ ws.flatMap fun w => List.replicate (w + 2) (Text.byte '-') ++ [Text.byte '+']

def headerLine (ws : List Nat) (header : List Text) : Text :=
  fenced ((ws.zip header).map fun (w, h) => centre w h)

/-- The lines of a row: as many as its tallest cell has. -/
def rowLines (ws : List Nat) (row : List Text) : List Text :=
  let columns := row.map cellLines
  let height := (columns.map List.length).foldl max 0
  (List.range height).map fun k =>
    fenced ((ws.zip columns).map fun (w, lines) => align w (lines.getD k (spaces 2)))

/-! ## Captions -/

/-- What a line costs that is longer than allowed. -/
def overrunPenalty : Nat := 100000

/-- Lines that hold some words, and how ragged they are. -/
structure Wrapping where
  cost : Nat
  lines : List (List Text)
deriving DecidableEq, Repr

/-- The width of words on one line. -/
def phraseWidth (words : List Text) : Nat :=
  (words.map Text.width).foldr (· + ·) (words.length - 1)

/-- The cost of a line in front of others. -/
def lineCost (limit : Nat) (words : List Text) : Nat :=
  let w := phraseWidth words
  let d := ((limit : Int) - w).natAbs
  d * d + if limit < w then overrunPenalty else 0

/-- The best wrapping of words that do not fit on one line, given those of every rest. Of
equal ones the one with the shortest first line is taken. -/
def bestSplit (limit : Nat) (words : List Text) (rests : List Wrapping) : Wrapping :=
  let splits := rests.zipIdx.map fun (r, i) =>
    let first := words.take (i + 1)
    Wrapping.mk (lineCost limit first + r.cost) (first :: r.lines)
  match splits with
  | [] => ⟨0, [words]⟩
  | s :: more => more.foldl (fun best r => if r.cost < best.cost then r else best) s

/-- The wrappings of the words and of every rest of them, longest first. -/
def wrappings (limit : Nat) : List Text → List Wrapping
  | [] => []
  | w :: ws =>
    let rests := wrappings limit ws
    let whole := w :: ws
    (if phraseWidth whole ≤ limit then ⟨0, [whole]⟩ else bestSplit limit whole rests) :: rests

/-- Breaks a text at spaces into lines that fit a width, as little ragged as possible. A word
that is wider sets the width. -/
def wrap (width : Nat) (t : Text) : List Text :=
  let space := Text.byte ' '
  let words := Text.splitOn space (t.map fun b => if b = newline then space else b)
  let limit := (words.map Text.width).foldl max width
  match wrappings limit words with
  | [] => []
  | best :: _ => best.lines.map (Text.join " ")

/-- The width a caption may take. -/
def captionWidth (ws : List Nat) : Nat := ws.foldr (· + ·) (3 * ws.length + 2)

/-- All lines of the table. -/
def lines (t : Table) : List Text :=
  let ws := t.widths
  [rule ws, headerLine ws t.header, rule ws] ++ t.rows.flatMap (rowLines ws) ++ [rule ws] ++
    (match t.caption with
      | some c => wrap (captionWidth ws) c
      | none => [])

/-- The table as a text in which every line is ended. -/
def render (t : Table) : Text := t.lines.flatMap (· ++ [newline])

end Table

end OperandStack
