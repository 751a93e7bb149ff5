import OperandStack.Text.Utf8

/-!
# Tokens of a YAML stream

The part of the format that listings use: block and flow collections, plain and quoted
scalars, comments, and document marks. `TokenKind` names what the scanner finds; indentation
shows as tokens that start and end block collections.
-/

namespace OperandStack.Yaml

inductive ScalarStyle where
  | plain
  | quoted
deriving DecidableEq, Repr

inductive TokenKind where
  | streamStart
  | documentStart
  | documentEnd
  | directive
  | blockSequenceStart
  | blockMappingStart
  | blockEnd
  | flowSequenceStart
  | flowSequenceEnd
  | flowMappingStart
  | flowMappingEnd
  | blockEntry
  | flowEntry
  | key
  | value
  | scalar (style : ScalarStyle) (text : Text)
  | streamEnd
deriving DecidableEq, Repr

/-- Lines are numbered from one. -/
structure Token where
  kind : TokenKind
  line : Nat
deriving DecidableEq, Repr

/-! ## Characters -/

/-- Characters a stream may hold. -/
def isAllowed (c : Char) : Bool :=
  let n := c.toNat
  n = 0x09 || n = 0x0A || n = 0x0D || (0x20 ≤ n && n ≤ 0x7E) || n = 0x85 ||
    (0xA0 ≤ n && n ≤ 0xD7FF) || (0xE000 ≤ n && n ≤ 0xFFFD) || 0x10000 ≤ n

def byteOrderMark : Char := '\uFEFF'

/-- Line and paragraph separators. -/
def isSeparator (c : Char) : Bool := c = '\u2028' || c = '\u2029'

def isSpace (c : Char) : Bool := c = ' ' || c = '\t'

def isBreak (c : Char) : Bool := c = '\n' || c = '\r' || c = '\u0085' || isSeparator c

def startsBlank : List Char → Bool
  | [] => true
  | c :: _ => isSpace c || isBreak c

def startsBreak : List Char → Bool
  | [] => false
  | c :: _ => isBreak c

/-- Characters that mean something at the start of a token. -/
def indicators : List Char :=
  ['-', '?', ':', ',', '[', ']', '{', '}', '#', '&', '*', '!', '|', '>', '\'', '"', '%', '@',
    '\x60']

/-- A document mark stands at the start of a line and is followed by a blank. -/
def startsDocumentMark : List Char → Bool
  | '-' :: '-' :: '-' :: rest => startsBlank rest
  | '.' :: '.' :: '.' :: rest => startsBlank rest
  | _ => false

end OperandStack.Yaml
