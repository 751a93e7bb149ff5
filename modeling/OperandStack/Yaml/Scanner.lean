import OperandStack.Yaml.Scalar

/-!
# Scanning a YAML stream

`Scanner.peek` and `Scanner.drop` give the tokens of a stream one by one. Whether a scalar or
a flow collection is a mapping key shows only at the colon behind it, so the scanner
remembers where a key may have started and puts the key token there afterwards. A token is
given away once two more stand behind it, and not while a key may still start with it. Such a
key fits on one line; in block collections the first scalar of a line at the current
indentation has to be one.
-/

namespace OperandStack.Yaml

/-- A place where a key may start: the number of the token that would be the key. -/
structure KeyStart where
  possible : Bool := true
  required : Bool := false
  token : Nat := 0
  index : Nat := 0
  line : Nat := 0
  column : Nat := 0
deriving DecidableEq, Repr

structure Scanner where
  cursor : Cursor
  started : Bool := false
  /-- Tokens that were read and not yet dropped. -/
  queue : List Token := []
  /-- The number of tokens that were dropped. -/
  dropped : Nat := 0
  flow : Nat := 0
  indent : Int := -1
  indents : List Int := []
  keyAllowed : Bool := true
  /-- A place for every flow collection that is open, innermost first, and one for the block
  around them. -/
  keys : List KeyStart := [{ possible := false }]
  /-- The tokens that wait for a colon, latest first, each with the number of flow collections
  around its key. -/
  waiting : List (Nat × Nat) := []
deriving Repr

namespace Scanner

def ofText (t : Text) : Scanner := { cursor := Cursor.ofStream (Stream.ofText t) }

/-- Loads the next `n` characters. -/
def demand (s : Scanner) (n : Nat) : Option Scanner :=
  (s.cursor.demand n).map fun cursor => { s with cursor }

def emit (s : Scanner) (kind : TokenKind) : Scanner :=
  { s with queue := s.queue ++ [⟨kind, s.cursor.line + 1⟩] }

/-- Emits a token of `n` characters. -/
def take (s : Scanner) (n : Nat) (kind : TokenKind) : Scanner :=
  { s.emit kind with cursor := s.cursor.skip n }

/-- The number of the token that is read next. -/
def nextToken (s : Scanner) : Nat := s.dropped + s.queue.length

/-- Puts a token where the one of that number stands. If that was dropped, it goes to the
end. -/
def insert (s : Scanner) (number : Nat) (t : Token) : Scanner :=
  { s with
    queue :=
      if number < s.dropped then s.queue ++ [t] else s.queue.insertIdx (number - s.dropped) t }

/-! ## Keys -/

/-- The longest distance between the start of a key and its colon. -/
def keyLimit : Nat := 1024

def isStale (k : KeyStart) (c : Cursor) : Bool :=
  k.line < c.line || k.index + keyLimit < c.index

/-- No longer waits for a colon behind a token. -/
def forget (s : Scanner) (token : Nat) : Scanner :=
  { s with waiting := s.waiting.eraseP fun w => w.1 = token }

/-- Puts a key in the innermost place. -/
def setKey (s : Scanner) (k : KeyStart) : Scanner := { s with keys := k :: s.keys.drop 1 }

/-- Whether a key may still start inside `depth` flow collections. A required key may not be
given up. -/
def mayBeKey (s : Scanner) (depth : Nat) : Option (Bool × Scanner) :=
  let place := s.flow - depth
  match s.keys[place]? with
  | none => some (false, s)
  | some k =>
    if !k.possible then some (false, s)
    else if isStale k s.cursor then
      if k.required then none
      else some (false, { s with keys := s.keys.set place { k with possible := false } })
    else some (true, s)

/-- Gives up the key that may have started; a required one may not be given up. -/
def dropKey (s : Scanner) : Option Scanner :=
  match s.keys with
  | [] => some s
  | k :: _ =>
    if !k.possible then some s
    else if k.required then none
    else some ((s.setKey { k with possible := false }).forget k.token)

/-- The key that would start here. -/
def keyHere (s : Scanner) : KeyStart :=
  let c := s.cursor
  { required := s.flow = 0 && s.indent = c.column, token := s.nextToken, index := c.index,
    line := c.line, column := c.column }

/-- Notes that a key may start here. -/
def saveKey (s : Scanner) : Option Scanner :=
  if s.keyAllowed then do
    let s ← s.dropKey
    let k := s.keyHere
    return { s.setKey k with waiting := (k.token, s.flow) :: s.waiting }
  else some s

/-! ## Blocks -/

/-- The deepest nesting of flow collections, and of blocks. -/
def depthLimit : Nat := 10000

/-- Opens a block collection at a column right of the current indentation. `number` is the
number its token gets. -/
def openBlock (s : Scanner) (column number line : Nat) (kind : TokenKind) : Option Scanner :=
  if s.flow = 0 && s.indent < column then
    if depthLimit < s.indents.length + 1 then none
    else some ({ s with indents := s.indent :: s.indents, indent := column }.insert number
      ⟨kind, line + 1⟩)
  else some s

/-- Opens a block collection here. -/
def openBlockHere (s : Scanner) (kind : TokenKind) : Option Scanner :=
  s.openBlock s.cursor.column s.nextToken s.cursor.line kind

/-- Closes block collections that are indented further than `column`. -/
def closeBlocks (column : Int) : List Int → Scanner → Scanner
  | [], s => s
  | outer :: rest, s =>
    if column < s.indent then
      closeBlocks column rest { s.emit .blockEnd with indent := outer, indents := rest }
    else s

def unindent (s : Scanner) (column : Int) : Scanner :=
  if s.flow = 0 then closeBlocks column s.indents s else s

/-! ## Blanks -/

/-- Moves past blanks on the line. Tabs count where no key may start. -/
def skipSpaces : Nat → Scanner → Option Scanner
  | 0, s => some s
  | fuel + 1, s => do
    let s ← s.demand 1
    let tabs := 0 < s.flow || !s.keyAllowed
    match s.cursor.rest with
    | b :: _ =>
      if b = ' ' || (b = '\t' && tabs) then skipSpaces fuel { s with cursor := s.cursor.next }
      else some s
    | [] => some s

/-- Moves past blanks, comments and line breaks. At the start of a line the first character is
passed over as well as long as the loaded part starts with a byte order mark. -/
def skipBlanks : Nat → Scanner → Option Scanner
  | 0, s => some s
  | fuel + 1, s => do
    let s ← s.demand 1
    let c := s.cursor
    let s := if c.column = 0 && c.marked then { s with cursor := c.next } else s
    let s ← skipSpaces (s.cursor.size + 1) s
    let c := s.cursor
    let c ← if c.rest.head? = some '#' then Cursor.skipComments c.size 0 c else some c
    if startsBreak c.rest then do
      let c ← c.demand 2
      skipBlanks fuel
        { s with cursor := c.skipBreak, keyAllowed := s.keyAllowed || s.flow = 0 }
    else return { s with cursor := c }

/-! ## Tokens -/

/-- A mark that ends all open blocks. -/
def documentMark (s : Scanner) (kind : TokenKind) : Option Scanner := do
  let s ← (s.unindent (-1)).dropKey
  return { s with keyAllowed := false }.take 3 kind

/-- Reads the digits of a version number, of which there are one or two. -/
def versionPart? (cs : List Char) : Option (Nat × List Char) := do
  let digits := cs.takeWhile Char.isDigit
  if digits.isEmpty || 2 < digits.length then none
  return (digits.foldl (fun n d => n * 10 + (d.toNat - 48)) 0, cs.drop digits.length)

/-- Whether a line is a directive: the word, version 1.1, and nothing more but a comment. -/
def isVersion (line : List Char) : Bool :=
  let after := line.drop 5
  let version : Option Bool := do
    let (major, rest) ← versionPart? (after.dropWhile isSpace)
    if rest.head? ≠ some '.' then none
    let (minor, rest) ← versionPart? (rest.drop 1)
    let comment := rest.dropWhile isSpace
    return major = 1 && minor = 1 && (comment.isEmpty || comment.head? = some '#')
  line.take 5 = "%YAML".toList && startsBlank after && version = some true

/-- Reads a version directive with its line break. -/
def directive (s : Scanner) : Option Scanner := do
  let s ← (s.unindent (-1)).dropKey
  let c := s.cursor
  if !isVersion (c.rest.takeWhile fun d => !isBreak d) then none
  let s := { s with keyAllowed := false }.emit .directive
  let c ← Cursor.toLineEnd (c.size + 1) c
  return { s with cursor := (← c.demand 2).skipBreak }

def openFlow (s : Scanner) (kind : TokenKind) : Option Scanner := do
  let s ← s.saveKey
  if depthLimit < s.flow + 1 then none
  let inner : KeyStart := { s.keyHere with possible := false, required := false }
  return { s with flow := s.flow + 1, keys := inner :: s.keys, keyAllowed := true }.take 1 kind

/-- Leaves a flow collection. -/
def leaveFlow (s : Scanner) : Scanner :=
  if s.flow = 0 then s
  else match s.keys with
    | [] => s
    | k :: keys => { s with flow := s.flow - 1, keys }.forget k.token

def closeFlow (s : Scanner) (kind : TokenKind) : Option Scanner := do
  let s ← s.dropKey
  return { s.leaveFlow with keyAllowed := false }.take 1 kind

def flowEntry (s : Scanner) : Option Scanner := do
  let s ← s.dropKey
  return { s with keyAllowed := true }.take 1 .flowEntry

def blockEntry (s : Scanner) : Option Scanner := do
  if s.flow = 0 && !s.keyAllowed then none
  let s ← s.openBlockHere .blockSequenceStart
  let s ← s.dropKey
  return { s with keyAllowed := true }.take 1 .blockEntry

/-- An explicit key mark. -/
def explicitKey (s : Scanner) : Option Scanner := do
  if s.flow = 0 && !s.keyAllowed then none
  let s ← s.openBlockHere .blockMappingStart
  let s ← s.dropKey
  return { s with keyAllowed := s.flow = 0 }.take 1 .key

/-- What may have been a key is one now. -/
def confirmKey (s : Scanner) (k : KeyStart) : Option Scanner := do
  let s := s.insert k.token ⟨.key, k.line + 1⟩
  let s ← s.openBlock k.column k.token k.line .blockMappingStart
  let s := s.setKey { k with possible := false }
  return { s with keyAllowed := false }.forget k.token

/-- A colon, behind a key or on its own. -/
def colon (s : Scanner) : Option Scanner := do
  let (valid, s) ← s.mayBeKey s.flow
  match valid, s.keys.head? with
  | true, some k => return (← s.confirmKey k).take 1 .value
  | _, _ =>
    if s.flow = 0 && !s.keyAllowed then none
    let s ← s.openBlockHere .blockMappingStart
    return { s with keyAllowed := s.flow = 0 }.take 1 .value

def quotedScalar (s : Scanner) (single : Bool) : Option Scanner := do
  let s ← s.saveKey
  let c := s.cursor
  let (text, after) ← readQuoted single (c.size + 1) [] c.next
  let s := { s with keyAllowed := false }.emit (.scalar .quoted (Text.ofChars text))
  return { s with cursor := after }

def plainScalar (s : Scanner) : Option Scanner := do
  let s ← s.saveKey
  let c := s.cursor
  let r ← readPlain (0 < s.flow) (s.indent + 1) (c.size + 1) [] {} c
  let s := s.emit (.scalar .plain (Text.ofChars r.text))
  return { s with cursor := r.cursor, keyAllowed := r.brokeLine }

def startsPlain (s : Scanner) : List Char → Bool
  | [] => false
  | c :: rest =>
    (!isSpace c && !isBreak c && !indicators.contains c) ||
      (c = '-' && !(match rest with
        | d :: _ => isSpace d
        | [] => false)) ||
      (s.flow = 0 && (c = '?' || c = ':') && !startsBlank rest)

/-- Ends the stream. -/
def finish (s : Scanner) : Option Scanner := do
  let c := s.cursor
  let c := if c.column = 0 then c else { c with line := c.line + 1, column := 0 }
  let s ← ({ s with cursor := c }.unindent (-1)).dropKey
  return { s with keyAllowed := false }.emit .streamEnd

/-- Reads a token that is neither a mark of a document nor a directive. -/
def content (s : Scanner) (b : Char) (rest : List Char) : Option Scanner :=
  match b with
  | '[' => s.openFlow .flowSequenceStart
  | '{' => s.openFlow .flowMappingStart
  | ']' => s.closeFlow .flowSequenceEnd
  | '}' => s.closeFlow .flowMappingEnd
  | ',' => s.flowEntry
  | '\'' => s.quotedScalar true
  | '"' => s.quotedScalar false
  | _ =>
    if b = '-' && startsBlank rest then s.blockEntry
    else if b = '?' && (0 < s.flow || startsBlank rest) then s.explicitKey
    else if b = ':' && (0 < s.flow || startsBlank rest) then s.colon
    else if s.startsPlain (b :: rest) then s.plainScalar
    else none

/-- Moves past a comment behind a token. Behind the mark of a block entry there is none: it
belongs to the entry. -/
def skipLineComment (s : Scanner) : Option Scanner :=
  if s.queue.getLast?.any fun t => t.kind = .blockEntry then some s
  else s.cursor.skipLineComment.map fun cursor => { s with cursor }

/-- Reads the next token. -/
def fetch (s : Scanner) : Option Scanner := do
  let s ← s.demand 1
  if !s.started then return { s with started := true }.emit .streamStart
  let s ← skipBlanks (s.cursor.size + 1) s
  let s ← (s.unindent s.cursor.column).demand 4
  match s.cursor.rest with
  | [] => s.finish
  | b :: rest =>
    if s.cursor.column = 0 && b = '%' then s.directive
    else if s.cursor.atDocumentMark then
      s.documentMark (if b = '-' then .documentStart else .documentEnd)
    else do
      (← s.content b rest).skipLineComment

/-- Tokens that are read beyond the one that is given away. -/
def lookahead : Nat := 2

/-- Reads tokens until the first can be given away. -/
def fill : Nat → Scanner → Option Scanner
  | 0, _ => none
  | fuel + 1, s => do
    if s.queue.length ≤ lookahead then fill fuel (← s.fetch)
    else
      match s.waiting.lookup s.dropped with
      | none => return s
      | some depth =>
        let (valid, s) ← s.mayBeKey depth
        if valid then fill fuel (← s.fetch) else return s

/-- The next token. Each one that is read takes a character, but for those at either end. -/
def peek (s : Scanner) : Option (Token × Scanner) := do
  let s ← fill (s.cursor.size + 2 * lookahead + 1) s
  return (← s.queue.head?, s)

/-- Drops the next token. -/
def drop (s : Scanner) : Scanner :=
  { s with queue := s.queue.drop 1, dropped := s.dropped + 1 }

end Scanner

end OperandStack.Yaml
