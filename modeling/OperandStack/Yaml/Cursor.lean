import OperandStack.Yaml.Stream

/-!
# Places in a stream

A cursor stands at a character and loads the blocks it needs: `demand n` makes sure that the
next `n` characters, or all that are left, can be looked at. It fails where the stream is
broken.
-/

namespace OperandStack.Yaml

/-- Lines and columns are numbered from zero. -/
structure Cursor where
  /-- All characters ahead, loaded or not. -/
  rest : List Char
  /-- The number of characters in the stream. -/
  size : Nat
  index : Nat := 0
  line : Nat := 0
  column : Nat := 0
  /-- Line breaks since the last character that is no blank. -/
  breaks : Nat := 0
  /-- The index up to which characters are loaded. -/
  loaded : Nat := 0
  /-- The sizes of the blocks that are not loaded. -/
  pending : List Nat := []
  /-- Whether the stream is broken behind the last block. -/
  broken : Bool := false
  /-- Whether a byte order mark stood here when a block was loaded last. -/
  marked : Bool := false
deriving Repr

namespace Cursor

def ofStream (s : Stream) : Cursor :=
  let cs := s.blocks.flatten
  { rest := cs, size := cs.length, pending := s.blocks.map List.length, broken := s.broken }

/-- Loads blocks until `goal` characters are there or no block is left. -/
def load (goal : Nat) : Nat → List Nat → Nat × List Nat
  | loaded, [] => (loaded, [])
  | loaded, size :: sizes =>
    if goal ≤ loaded then (loaded, size :: sizes) else load goal (loaded + size) sizes

def demand (c : Cursor) (n : Nat) : Option Cursor :=
  let goal := c.index + n
  if goal ≤ c.loaded then some c
  else
    let (loaded, pending) := load goal c.loaded c.pending
    if loaded < goal && c.broken then none
    else some { c with loaded, pending, marked := c.rest.head? = some byteOrderMark }

/-- Moves past a character of the line. -/
def next (c : Cursor) : Cursor :=
  match c.rest with
  | [] => c
  | b :: rest =>
    { c with
      rest
      index := c.index + 1
      column := c.column + 1
      breaks := if isSpace b then c.breaks else 0 }

/-- Moves past `n` characters of the line. -/
def skip (c : Cursor) : Nat → Cursor
  | 0 => c
  | n + 1 => c.next.skip n

/-- Moves past a line break, if one stands here. -/
def skipBreak (c : Cursor) : Cursor :=
  let past (rest : List Char) (n : Nat) : Cursor :=
    { c with rest, index := c.index + n, line := c.line + 1, column := 0, breaks := c.breaks + 1 }
  match c.rest with
  | '\r' :: '\n' :: rest => past rest 2
  | b :: rest => if isBreak b then past rest 1 else c
  | [] => c

/-- The line break that stands here, as it is read: separators stay, all others become a
line feed. -/
def breakChar (c : Cursor) : Char :=
  match c.rest with
  | b :: _ => if isSeparator b then b else '\n'
  | [] => '\n'

def atDocumentMark (c : Cursor) : Bool := c.column = 0 && startsDocumentMark c.rest

/-- Moves to the end of the line. -/
def toLineEnd : Nat → Cursor → Option Cursor
  | 0, c => some c
  | fuel + 1, c => do
    let c ← c.demand 1
    if c.rest.isEmpty || startsBreak c.rest then some c else toLineEnd fuel c.next

/-! ## Comments -/

/-- How far ahead a comment is looked for. -/
def commentReach : Nat := 512

/-- Looks for a comment from a place on: blanks may stand in front of it, and line feeds and
carriage returns if `breaks` says so. Gives where the look ended and whether a comment starts
there. -/
def seekComment (breaks : Bool) (place : Nat) (cs : List Char) : Nat × Bool :=
  match cs with
  | [] => (place, false)
  | b :: rest =>
    if commentReach < place + 1 then (place - 1, false)
    else if isSpace b || (breaks && (b = '\n' || b = '\r')) then
      seekComment breaks (place + 1) rest
    else (place, b = '#')

/-- Moves past a comment on the same line, if no line break was passed just before. -/
def skipLineComment (c : Cursor) : Option Cursor :=
  if 0 < c.breaks then some c
  else do
    let (n, found) := seekComment false 0 c.rest
    let c ← c.demand (n + 1)
    if found then toLineEnd (c.size + 1) (c.skip n) else some c

/-- Moves past blanks and breaks to an index. -/
def toIndex (goal : Nat) : Nat → Cursor → Option Cursor
  | 0, c => some c
  | fuel + 1, c =>
    if goal ≤ c.index then some c
    else do
      let c ← c.demand 1
      toIndex goal fuel (if startsBreak c.rest then c.skipBreak else c.next)

/-- Moves past comments, also on following lines, up to the end of the last one's line.
`ahead` characters are passed over in the search for the first. -/
def skipComments : Nat → Nat → Cursor → Option Cursor
  | 0, _, c => some c
  | fuel + 1, ahead, c => do
    let (n, found) := seekComment true ahead (c.rest.drop ahead)
    let c ← c.demand (n + 1)
    if !found then return c
    let c ← toIndex (c.index + n) c.size c
    let c ← toLineEnd (c.size + 1) c
    match c.rest with
    | b :: _ => if b = '\n' || b = '\r' then skipComments fuel 1 c else return c
    | [] => return c

end Cursor

end OperandStack.Yaml
