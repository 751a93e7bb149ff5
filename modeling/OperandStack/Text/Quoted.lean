import OperandStack.Text.Printable
import OperandStack.Text.Utf8

/-!
# Quoted texts

`quote` writes a text between double quotes with every unprintable character and stray byte
escaped; `unquote?` reads such a form back and also accepts octal and hexadecimal escapes
that `quote` never writes.
-/

namespace OperandStack.Text

/-- Escapes of a single letter: the letter and the code it stands for. -/
def letterEscapes : List (Char × Nat) :=
  [('a', 7), ('b', 8), ('f', 12), ('n', 10), ('r', 13), ('t', 9), ('v', 11)]

/-- A character as it stands between two `mark`s. -/
def escapeChar (mark c : Char) : Text :=
  if c = mark || c = '\\' then [byte '\\', byte c]
  else if isPrintable c then ofChar c
  else match letterEscapes.find? fun e => e.2 = c.toNat with
    | some (letter, _) => [byte '\\', byte letter]
    | none =>
      if c.toNat < 0x20 || c.toNat = 0x7F then "\\x" ++ ofHex 2 c.toNat
      else if c.toNat < 0x10000 then "\\u" ++ ofHex 4 c.toNat
      else "\\U" ++ ofHex 8 c.toNat

def escapePiece (mark : Char) : Utf8.Piece → Text
  | .char c => escapeChar mark c
  | .stray b => "\\x" ++ ofHex 2 b.toNat

def quote (t : Text) : Text :=
  byte '"' :: ((Utf8.pieces t).flatMap (escapePiece '"') ++ [byte '"'])

/-- The character whose code is the byte, between single quotes. -/
def quoteByte (b : UInt8) : Text :=
  byte '\'' :: (escapeChar '\'' (Char.ofNat b.toNat) ++ [byte '\''])

def hexDigit? (c : Char) : Option Nat :=
  if '0' ≤ c && c ≤ '9' then some (c.toNat - 48)
  else if 'a' ≤ c && c ≤ 'f' then some (c.toNat - 87)
  else if 'A' ≤ c && c ≤ 'F' then some (c.toNat - 55)
  else none

def octalDigit? (c : Char) : Option Nat :=
  if '0' ≤ c && c ≤ '7' then some (c.toNat - 48) else none

/-- The number with the given digits, most significant first. -/
def digitsValue? (digit? : Char → Option Nat) (base : Nat) (cs : List Char) : Option Nat :=
  cs.foldlM (fun n c => (digit? c).map fun d => n * base + d) 0

/-- The bytes of the code point `n`, if there is such a character. -/
def ofCode? (n : Nat) : Option Text :=
  if h : n.isValidChar then some (ofChar (Char.ofNatAux n h)) else none

/-- Reads up to the closing quote, which must be the last piece. A stray byte reads as the
replacement character. -/
def unquoteBody? : List Utf8.Piece → Option Text
  | [] => none
  | .stray _ :: ps => (unquoteBody? ps).map fun t => ofChar '\uFFFD' ++ t
  | .char '\\' :: .char 'x' :: .char a :: .char b :: ps => do
    let n ← digitsValue? hexDigit? 16 [a, b]
    (unquoteBody? ps).map fun t => n.toUInt8 :: t
  | .char '\\' :: .char 'u' :: .char a :: .char b :: .char c :: .char d :: ps => do
    let s ← ofCode? (← digitsValue? hexDigit? 16 [a, b, c, d])
    (unquoteBody? ps).map fun t => s ++ t
  | .char '\\' :: .char 'U' :: .char a :: .char b :: .char c :: .char d ::
      .char e :: .char f :: .char g :: .char h :: ps => do
    let s ← ofCode? (← digitsValue? hexDigit? 16 [a, b, c, d, e, f, g, h])
    (unquoteBody? ps).map fun t => s ++ t
  | .char '\\' :: .char c :: ps =>
    if c = '\\' || c = '"' then (unquoteBody? ps).map fun t => byte c :: t
    else match letterEscapes.lookup c with
      | some n => (unquoteBody? ps).map fun t => n.toUInt8 :: t
      | none =>
        match ps with
        | .char d :: .char e :: ps => do
          let n ← digitsValue? octalDigit? 8 [c, d, e]
          if n < 256 then (unquoteBody? ps).map fun t => n.toUInt8 :: t else none
        | _ => none
  | .char c :: ps =>
    if c = '"' then if ps.isEmpty then some [] else none
    else if c = '\n' || c = '\\' then none
    else (unquoteBody? ps).map fun t => ofChar c ++ t

/-- The text a double-quoted form stands for. -/
def unquote? (t : Text) : Option Text :=
  match Utf8.pieces t with
  | .char '"' :: ps => unquoteBody? ps
  | _ => none

end OperandStack.Text
