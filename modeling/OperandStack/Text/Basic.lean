/-!
# Byte texts

Names, descriptors, code lines and messages are sequences of bytes that need not be
valid UTF-8, so offsets and lengths count bytes. A string literal stands for its UTF-8
encoding wherever a text is expected.
-/

namespace OperandStack

abbrev Text := List UInt8

namespace Text

def ofString (s : String) : Text := s.toUTF8.data.toList

instance : Coe String Text := ⟨ofString⟩

def ofChar (c : Char) : Text := String.utf8EncodeChar c

def ofChars (cs : List Char) : Text := cs.flatMap ofChar

/-- The byte of an ASCII character. -/
def byte (c : Char) : UInt8 := c.toNat.toUInt8

def ofDigits (ds : List Char) : Text := ds.map byte

/-- Decimal notation without leading zeros. -/
def ofNat (n : Nat) : Text := ofDigits (Nat.toDigits 10 n)

def ofInt : Int → Text
  | .ofNat n => ofNat n
  | .negSucc n => byte '-' :: ofNat (n + 1)

/-- Lower case hexadecimal notation, padded with zeros to `width` digits. -/
def ofHex (width n : Nat) : Text :=
  let ds := Nat.toDigits 16 n
  ofDigits (List.replicate (width - ds.length) '0' ++ ds)

/-- The texts one after the other, with `sep` between neighbours. -/
def join (sep : Text) : List Text → Text
  | [] => []
  | [t] => t
  | t :: ts => t ++ sep ++ join sep ts

/-- The texts in brackets, separated by `sep`. -/
def bracketed (sep : Text) (ts : List Text) : Text := "[" ++ join sep ts ++ "]"

/-- The texts one after the other, each behind a mark. -/
def listed (mark : Text) (ts : List Text) : Text := ts.flatMap (mark ++ ·)

/-- The text without its leading `head`, if it starts with it. -/
def stripHead? : Text → Text → Option Text
  | [], t => some t
  | _ :: _, [] => none
  | a :: head, b :: t => if a = b then stripHead? head t else none

def startsWith (t head : Text) : Bool := (stripHead? head t).isSome

def endsWith (t tail : Text) : Bool := startsWith t.reverse tail.reverse

/-- Splits at the first occurrence of `b`, which belongs to neither part. -/
def cut? (b : UInt8) : Text → Option (Text × Text)
  | [] => none
  | a :: t => if a = b then some ([], t) else (cut? b t).map fun p => (a :: p.1, p.2)

/-- Splits at the last occurrence of `b`, which belongs to neither part. -/
def cutLast? (b : UInt8) (t : Text) : Option (Text × Text) :=
  (cut? b t.reverse).map fun p => (p.2.reverse, p.1.reverse)

/-- The parts between occurrences of `b`; there is always at least one. -/
def splitOn (b : UInt8) : Text → List Text
  | [] => [[]]
  | a :: t =>
    if a = b then [] :: splitOn b t
    else match splitOn b t with
      | [] => [[a]]
      | part :: parts => (a :: part) :: parts

/-- Order of texts by their bytes. -/
def le : Text → Text → Bool
  | [], _ => true
  | _ :: _, [] => false
  | a :: s, b :: t => a < b || (a = b && le s t)

end Text

end OperandStack
