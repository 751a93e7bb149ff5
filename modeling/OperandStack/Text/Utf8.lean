import OperandStack.Text.Basic

/-!
# Characters inside byte texts

`pieces` reads a text from left to right: a well-formed UTF-8 sequence becomes the
character it encodes, and every byte that starts none stands for itself. Overlong forms,
surrogates and values past the last code point are not well-formed.
-/

namespace OperandStack.Utf8

inductive Piece where
  | char (c : Char)
  | stray (b : UInt8)
deriving DecidableEq, Repr

def Piece.bytes : Piece → Text
  | .char c => Text.ofChar c
  | .stray b => [b]

/-- The character that is shown for a piece: stray bytes have the replacement character. -/
def Piece.shown : Piece → Char
  | .char c => c
  | .stray _ => '\uFFFD'

def isContinuation (b : UInt8) : Bool := 0x80 ≤ b && b ≤ 0xBF

def payload (b : UInt8) : Nat := b.toNat % 64

/-- The character encoded at the start of `b :: rest`, with the number of bytes it takes
from `rest`. -/
def head? (b : UInt8) (rest : Text) : Option (Char × Nat) :=
  if b < 0x80 then some (Char.ofNat b.toNat, 0)
  else if 0xC2 ≤ b && b ≤ 0xDF then
    match rest with
    | b₁ :: _ =>
      if isContinuation b₁ then some (Char.ofNat (b.toNat % 32 * 64 + payload b₁), 1) else none
    | _ => none
  else if 0xE0 ≤ b && b ≤ 0xEF then
    match rest with
    | b₁ :: b₂ :: _ =>
      let n := (b.toNat % 16 * 64 + payload b₁) * 64 + payload b₂
      if isContinuation b₁ && isContinuation b₂ && 0x800 ≤ n && !(0xD800 ≤ n && n ≤ 0xDFFF) then
        some (Char.ofNat n, 2)
      else none
    | _ => none
  else if 0xF0 ≤ b && b ≤ 0xF4 then
    match rest with
    | b₁ :: b₂ :: b₃ :: _ =>
      let n := ((b.toNat % 8 * 64 + payload b₁) * 64 + payload b₂) * 64 + payload b₃
      if isContinuation b₁ && isContinuation b₂ && isContinuation b₃ &&
          0x10000 ≤ n && n ≤ 0x10FFFF then
        some (Char.ofNat n, 3)
      else none
    | _ => none
  else none

/-- `skip` counts the bytes that belong to the character read last. -/
def piecesFrom : Nat → Text → List Piece
  | _, [] => []
  | skip + 1, _ :: rest => piecesFrom skip rest
  | 0, b :: rest =>
    match head? b rest with
    | some (c, taken) => .char c :: piecesFrom taken rest
    | none => .stray b :: piecesFrom 0 rest

def pieces (t : Text) : List Piece := piecesFrom 0 t

def ofPieces (ps : List Piece) : Text := ps.flatMap Piece.bytes

/-- The characters of a text without stray bytes. -/
def chars? (t : Text) : Option (List Char) :=
  (pieces t).mapM fun
    | .char c => some c
    | .stray _ => none

def isValid (t : Text) : Bool := (chars? t).isSome

/-- The number of characters, a stray byte counting as one. -/
def count (t : Text) : Nat := (pieces t).length

end OperandStack.Utf8
