import OperandStack.Text.Utf8

/-!
# White space

The characters with the Unicode property White_Space, trimming, and splitting a text into
the fields between runs of them. Stray bytes are never white space.
-/

namespace OperandStack

/-- Ranges of the property White_Space, in ascending order. -/
def blankRanges : List (Nat × Nat) :=
  [(0x09, 0x0D), (0x20, 0x20), (0x85, 0x85), (0xA0, 0xA0), (0x1680, 0x1680),
    (0x2000, 0x200A), (0x2028, 0x2029), (0x202F, 0x202F), (0x205F, 0x205F), (0x3000, 0x3000)]

def isBlank (c : Char) : Bool := blankRanges.any fun (lo, hi) => lo ≤ c.toNat && c.toNat ≤ hi

namespace Utf8

def Piece.isBlank : Piece → Bool
  | .char c => OperandStack.isBlank c
  | .stray _ => false

def trimPieces (ps : List Piece) : List Piece :=
  ((ps.dropWhile Piece.isBlank).reverse.dropWhile Piece.isBlank).reverse

/-- The maximal runs of pieces that are not white space. -/
def fieldPieces : List Piece → List (List Piece)
  | [] => []
  | p :: ps =>
    if p.isBlank then fieldPieces ps
    else match ps with
      | [] => [[p]]
      | q :: _ =>
        if q.isBlank then [p] :: fieldPieces ps
        else match fieldPieces ps with
          | [] => [[p]]
          | run :: runs => (p :: run) :: runs

end Utf8

namespace Text

/-- The text without white space at its ends. -/
def trim (t : Text) : Text := Utf8.ofPieces (Utf8.trimPieces (Utf8.pieces t))

/-- The parts of the text between white space. -/
def fields (t : Text) : List Text := (Utf8.fieldPieces (Utf8.pieces t)).map Utf8.ofPieces

end Text

end OperandStack
