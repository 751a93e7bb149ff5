import OperandStack.Text.Quoted
import OperandStack.Yaml.Cursor

/-!
# Reading scalars

Plain and quoted scalars may go on over several lines, which are folded: one line break
becomes a space, further ones stay.
-/

namespace OperandStack.Yaml

/-- Blanks and line breaks met inside a scalar. -/
structure Gap where
  spaces : List Char := []
  breaks : List Char := []
deriving Repr

/-- What a gap contributes to the scalar when more text follows. -/
def Gap.fold (g : Gap) : List Char :=
  match g.breaks with
  | [] => g.spaces
  | '\n' :: more => if more.isEmpty then [' '] else more
  | other => other

/-- Reads blanks and breaks. Before the first break blanks are kept; a tab after a break may
not stand left of `indent`. -/
def readGap (indent : Int) : Nat → Gap → Cursor → Option (Gap × Cursor)
  | 0, g, c => some (g, c)
  | fuel + 1, g, c => do
    let c ← c.demand 1
    match c.rest with
    | [] => some (g, c)
    | b :: _ =>
      if isSpace b then
        if g.breaks.isEmpty then readGap indent fuel { g with spaces := g.spaces ++ [b] } c.next
        else if b = '\t' && (c.column : Int) < indent then none
        else readGap indent fuel g c.next
      else if isBreak b then do
        let c ← c.demand 2
        readGap indent fuel ⟨[], g.breaks ++ [c.breakChar]⟩ c.skipBreak
      else some (g, c)

/-- Whether a plain scalar ends in front of these characters. -/
def endsPlain (flow : Bool) : List Char → Bool
  | [] => true
  | c :: rest =>
    isSpace c || isBreak c || (c = ':' && startsBlank rest) ||
      (flow && (c = ',' || c = '?' || c = '[' || c = ']' || c = '{' || c = '}'))

/-- Reads the unbroken part of a plain scalar. -/
def readPlainRun (flow : Bool) : Nat → Cursor → Option (List Char × Cursor)
  | 0, c => some ([], c)
  | fuel + 1, c =>
    match c.rest with
    | [] => some ([], c)
    | b :: rest =>
      if endsPlain flow (b :: rest) then some ([], c)
      else do
        let (run, c) ← readPlainRun flow fuel (← c.next.demand 2)
        return (b :: run, c)

/-- A scalar that was read, where it ended, and whether its last line is behind it. -/
structure ReadScalar where
  text : List Char
  cursor : Cursor
  brokeLine : Bool
deriving Repr

/-- Reads a plain scalar. Outside flow collections it ends where a line is not indented by
`indent`. -/
def readPlain (flow : Bool) (indent : Int) :
    Nat → List Char → Gap → Cursor → Option ReadScalar
  | 0, _, _, _ => none
  | fuel + 1, text, gap, c => do
    let c ← c.demand 4
    if c.atDocumentMark || c.rest.head? = some '#' then
      return ⟨text, c, !gap.breaks.isEmpty⟩
    let (run, c) ← readPlainRun flow c.size c
    let text := if run.isEmpty then text else text ++ gap.fold ++ run
    let gap := if run.isEmpty then gap else {}
    if !startsBlank c.rest || c.rest.isEmpty then
      return ⟨text, c, !gap.breaks.isEmpty⟩
    let (gap, c) ← readGap indent (c.size + 1) gap c
    if !flow && (c.column : Int) < indent then return ⟨text, c, !gap.breaks.isEmpty⟩
    readPlain flow indent fuel text gap c

/-- Escapes of one letter in double quotes. -/
def escapes : List (Char × Char) :=
  [('0', '\x00'), ('a', '\x07'), ('b', '\x08'), ('t', '\t'), ('\t', '\t'), ('n', '\n'),
    ('v', '\x0b'), ('f', '\x0c'), ('r', '\r'), ('e', '\x1b'), (' ', ' '), ('"', '"'),
    ('\'', '\''), ('\\', '\\'), ('N', '\u0085'), ('_', '\u00A0'), ('L', '\u2028'),
    ('P', '\u2029')]

/-- Escapes followed by a number of hexadecimal digits. -/
def codeEscapes : List (Char × Nat) := [('x', 2), ('u', 4), ('U', 8)]

/-- The character of a code, if there is one. -/
def charOfCode? (n : Nat) : Option Char :=
  if h : n.isValidChar then some (Char.ofNatAux n h) else none

/-- Reads an escape after its backslash; gives the character and the number of characters
taken. -/
def readEscape : List Char → Option (Char × Nat)
  | [] => none
  | e :: rest =>
    match escapes.lookup e with
    | some c => some (c, 1)
    | none => do
      let width ← codeEscapes.lookup e
      let digits := rest.take width
      if digits.length < width then none
      let c ← charOfCode? (← Text.digitsValue? Text.hexDigit? 16 digits)
      return (c, 1 + width)

/-- What follows the unbroken part of a quoted scalar. -/
inductive RunEnd where
  | quote
  | gap
  /-- A gap that an escaped line break starts. -/
  | escapedBreak
deriving DecidableEq, Repr

/-- Reads a quoted scalar up to a blank or its closing quote. -/
def readQuotedRun (single : Bool) :
    Nat → List Char → Cursor → Option (List Char × RunEnd × Cursor)
  | 0, _, _ => none
  | fuel + 1, text, c =>
    let more (read : List Char) (n : Nat) : Option (List Char × RunEnd × Cursor) := do
      readQuotedRun single fuel (text ++ read) (← (c.skip n).demand 2)
    match c.rest with
    | [] => some (text, .gap, c)
    | q :: rest =>
      if isSpace q || isBreak q then some (text, .gap, c)
      else if single then
        if q = '\'' then
          if rest.head? = some '\'' then more ['\''] 2 else some (text, .quote, c)
        else more [q] 1
      else if q = '"' then some (text, .quote, c)
      else if q = '\\' then
        if startsBreak rest then do
          let c ← c.demand 3
          return (text, .escapedBreak, c.next.skipBreak)
        else do
          let width := ((rest.head?.bind fun e => codeEscapes.lookup e).getD 0) + 2
          let _ ← c.demand width
          let (e, taken) ← readEscape rest
          more [e] (taken + 1)
      else more [q] 1

/-- Reads a quoted scalar after its opening quote. After an escaped line break only further
breaks count. -/
def readQuoted (single : Bool) : Nat → List Char → Cursor → Option (List Char × Cursor)
  | 0, _, _ => none
  | fuel + 1, text, c => do
    let c ← c.demand 4
    if c.atDocumentMark || c.rest.isEmpty then none
    let (text, finish, c) ← readQuotedRun single (c.size + 1) text c
    let c ← c.demand 1
    if finish = .quote then return (text, c.next)
    let escaped := finish = .escapedBreak
    let start : Gap := if escaped then ⟨[], ['\x00']⟩ else {}
    let (gap, c) ← readGap (-1) (c.size + 1) start c
    readQuoted single fuel (text ++ if escaped then gap.breaks.drop 1 else gap.fold) c

end OperandStack.Yaml
