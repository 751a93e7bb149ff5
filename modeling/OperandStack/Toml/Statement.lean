import OperandStack.Text.Quoted
import OperandStack.Toml.Rule

/-!
# Statements of a TOML file

A file is a list of statements: headers that open a table, and assignments. `Statement.read`
reads them all, or tells the line of a mistake. Lines are numbered from one, and carriage
returns count as well as line feeds.
-/

namespace OperandStack.Toml

/-- A key. It has no name if its quotes hold an escape that stands for no character. -/
structure Key where
  name : Option Text
  line : Nat
deriving DecidableEq, Repr

/-- Integers and floats are kept without their underscores, dates as they are written. -/
inductive Value where
  | integer (text : Text)
  | float (text : Text)
  /-- A string is sound if all its escapes stand for characters. -/
  | string (sound : Bool) (line : Nat)
  | boolean (b : Bool)
  | datetime (text : Text)
  | array (items : List Value)
  /-- A table in braces: the line it starts on, and its assignments with the lines their
  values end on. -/
  | inline (line : Nat) (entries : List (Key × Nat × Value))
deriving Repr

inductive Statement where
  /-- A header: the keys of its path, how they are written, and whether the table is a further
  element of an array. -/
  | header (path : List Key) (written : Text) (line : Nat) (element : Bool)
  | assign (key : Key) (line : Nat) (v : Value)
deriving Repr

open Rule

/-! ## Blanks -/

/-- Characters of comments and of strings between single quotes. -/
def isPlain (c : Char) : Bool := c = '\t' || 0x20 ≤ c.toNat

def spaces : Rule Unit := part (span isSpace)

def blanks : Rule Unit := part (span fun c => isSpace c || isBreak c)

def breaks : Rule Unit := part (spanOne isBreak)

def comment : Rule Unit := part do
  word "#"
  span isPlain

/-- The line that was reached. -/
def line : Rule Nat := do return (← here).line

/-! ## Strings and keys -/

def escape : Rule Unit := part (one (· = '\\'))

def hexQuad : Rule Unit := part (times (part (one fun c => (Text.hexDigit? c).isSome)) 4)

def escaped : Rule Unit := part do
  escape
  one (fun c => "btnfr\"/\\".toList.contains c) <|>
    (do word "u"; hexQuad) <|> (do word "U"; hexQuad; hexQuad)

/-- A character between double quotes. -/
def basicChar : Rule Unit :=
  part (one fun c => 0x20 ≤ c.toNat && c ≠ '"' && c ≠ '\\') <|> escaped

/-- What characters between double quotes stand for. -/
def unescape? (cs : List Char) : Option Text :=
  Text.unquote? (Text.ofChars ('"' :: cs ++ ['"']))

def basicString : Rule (List Char) := part do
  word "\""
  let body ← written (many basicChar)
  word "\""
  return body

/-- A string over several lines, without its breaks. A backslash at the end of a line takes
the blanks behind it away. -/
def basicBlock : Rule (List Char) := part do
  word "\"\"\""
  let parts ← many (written basicChar <|> (do breaks; pure []) <|>
    (do escape; breaks; blanks; pure []))
  word "\"\"\""
  return parts.flatten

def literalString : Rule Unit := part do
  word "'"
  let _ ← many (part (one fun c => isPlain c && c ≠ '\''))
  word "'"

/-- A character of a literal block, which three single quotes end. -/
def blockChar : Rule Unit := do
  if (← here).rest.take 3 = ['\'', '\'', '\''] then failure
  part (one isPlain) <|> breaks

def literalBlock : Rule Unit := part do
  word "'''"
  let _ ← many blockChar
  word "'''"

/-- A string of any kind, and whether it is sound. -/
def string : Rule Bool :=
  (do literalBlock; pure true) <|> (do literalString; pure true) <|>
    (do return (unescape? (← basicBlock)).isSome) <|>
    (do return (unescape? (← basicString)).isSome)

def isBareKey (c : Char) : Bool := c.isAlphanum || c = '-' || c = '_'

def bareKey : Rule (Option Text) := do
  return some (Text.ofChars (← written (part (spanOne isBareKey))))

def quotedKey : Rule (Option Text) := part do
  word "\""
  let body ← written (manyOne basicChar)
  word "\""
  return unescape? body

def key : Rule Key := do
  let name ← bareKey <|> quotedKey
  return ⟨name, ← line⟩

/-- Keys with dots between them. -/
def path : Rule (List Key) := do
  let first ← key
  let more ← many (do
    part (do spaces; word "."; spaces)
    key)
  return first :: more

/-! ## Numbers, dates and truth values -/

def digit : Rule Unit := part (one Char.isDigit)

/-- A digit that an underscore may stand in front of. -/
def furtherDigit : Rule Unit := digit <|> (do word "_"; digit)

def furtherDigits : Rule Unit := do let _ ← many furtherDigit

def sign : Rule Unit := maybe (one fun c => c = '+' || c = '-')

/-- A single digit, or more that do not start with a zero. -/
def integer : Rule Unit := part do
  sign
  (part do
    one fun c => c.isDigit && c ≠ '0'
    furtherDigit
    furtherDigits) <|> digit

def fraction : Rule Unit := part do
  word "."
  digit
  furtherDigits

def exponent : Rule Unit := part do
  one fun c => c = 'e' || c = 'E'
  sign
  digit
  furtherDigits

def float : Rule Unit := part do
  integer
  (do fraction; maybe exponent) <|> (do maybe fraction; exponent)

/-- Exactly `n` digits. -/
def digits (n : Nat) : Rule Unit := part (times digit n)

def date : Rule Unit := part do
  digits 4
  word "-"
  digits 2
  word "-"
  digits 2

def clock : Rule Unit := part do
  digits 2
  word ":"
  digits 2
  word ":"
  digits 2
  maybe (part do word "."; let _ ← manyOne digit)

def offset : Rule Unit := part <|
  word "Z" <|> (do
    one fun c => c = '+' || c = '-'
    digits 2
    word ":"
    digits 2)

/-- A date, a date with a time and an offset, or a time. -/
def datetime : Rule Unit :=
  (do date; maybe (do word "T"; clock; offset)) <|> clock

/-- A number without its underscores. -/
def numeral (p : Rule Unit) : Rule Text := do
  return Text.ofChars ((← written p).filter (· ≠ '_'))

/-- A value without parts. -/
def scalar : Rule Value :=
  (do return .datetime (Text.ofChars (← written datetime))) <|>
    (do return .float (← numeral float)) <|>
    (do return .integer (← numeral integer)) <|>
    (do let sound ← string; return .string sound (← line)) <|>
    (do part (word "true"); return .boolean true) <|>
    (do part (word "false"); return .boolean false)

/-! ## Values with parts -/

/-- Blanks and a comment between the items of an array. -/
def filler : Rule Unit := do
  blanks
  maybe comment
  blanks

def comma : Rule Unit := part (word ",")

mutual

/-- Values are nested no deeper than `fuel` tells. -/
def value : Nat → Rule Value
  | 0 => failure
  | fuel + 1 => scalar <|> part (array fuel) <|> part (inlineTable fuel)

def array : Nat → Rule Value
  | 0 => failure
  | fuel + 1 => do
    word "["
    blanks
    let items ← (do
      let first ← value fuel
      let more ← many (do filler; comma; filler; value fuel)
      blanks
      maybe comma
      blanks
      maybe comment
      return first :: more) <|> pure []
    blanks
    word "]"
    return .array items

def inlineTable : Nat → Rule Value
  | 0 => failure
  | fuel + 1 => do
    word "\x7b"
    let start ← line
    spaces
    let entries ← many (do
      let entry ← assignment fuel
      maybe (part (do spaces; word ","; spaces))
      return entry)
    spaces
    word "\x7d"
    return .inline start entries

/-- An assignment, with the line its value ends on. -/
def assignment : Nat → Rule (Key × Nat × Value)
  | 0 => failure
  | fuel + 1 => do
    let k ← key
    spaces
    word "="
    spaces
    let v ← value fuel
    return (k, ← line, v)

end

/-! ## Statements -/

/-- A header, between single brackets or, for an element, between double ones. -/
def header : Rule Statement :=
  let within (opening closing : String) (element : Bool) : Rule Statement := part do
    word opening
    spaces
    let start ← here
    let keys ← path
    let text := start.rest.take ((← here).index - start.index)
    spaces
    word closing
    return .header keys (Text.ofChars text) (← line) element
  within "[" "]" false <|> within "[[" "]]" true

def assign (fuel : Nat) : Rule Statement := do
  let (k, n, v) ← assignment fuel
  spaces
  maybe comment
  return .assign k n v

/-- What may stand between line breaks: a header and the assignments under it, of which several
may stand on a line, an assignment, or nothing. -/
def expression (fuel : Nat) : Rule (List Statement) := part <|
  (do
    spaces
    let h ← header
    spaces
    maybe comment
    return h :: (← many (do blanks; assign fuel))) <|>
  (do spaces; return [← assign fuel]) <|>
  (do spaces; maybe comment; return [])

def statements (fuel : Nat) : Rule (List Statement) := do
  let first ← expression fuel
  let more ← many (do breaks; expression fuel)
  maybe breaks
  finish
  return first ++ more.flatten

/-- Reads a file, or gives the line of a mistake, which is the line of the character behind
the furthest part; only line feeds count there. Bytes that are no text stand for the
replacement character. -/
def Statement.read (t : Text) : Except Nat (List Statement) :=
  let cs := (Utf8.pieces t).map Utf8.Piece.shown
  ((statements (4 * cs.length + 4)).apply cs).mapError fun furthest =>
    1 + (cs.take (furthest + 1)).countP (· = '\n')

end OperandStack.Toml
