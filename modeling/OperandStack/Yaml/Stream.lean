import OperandStack.Yaml.Token

/-!
# Characters of a stream

The bytes of a stream are decoded block by block. A byte order mark at the front tells the
encoding, which is UTF-8 without one. What stands before the first block that cannot be
decoded can still be read.
-/

namespace OperandStack.Yaml

inductive Encoding where
  | utf8
  | utf16 (bigEndian : Bool)
deriving DecidableEq, Repr

/-- What some bytes start with. -/
inductive Front where
  | char (c : Char) (size : Nat)
  /-- The character is not complete. -/
  | cut
  | malformed
deriving DecidableEq, Repr

namespace Encoding

/-- The encoding of a stream, and its bytes without the mark. -/
def detect : Text → Encoding × Text
  | 0xFF :: 0xFE :: rest => (.utf16 false, rest)
  | 0xFE :: 0xFF :: rest => (.utf16 true, rest)
  | 0xEF :: 0xBB :: 0xBF :: rest => (.utf8, rest)
  | t => (.utf8, t)

/-- How many bytes the first one announces. -/
def announced? (b : UInt8) : Option Nat :=
  if b < 0x80 then some 1
  else if 0xC0 ≤ b && b < 0xE0 then some 2
  else if 0xE0 ≤ b && b < 0xF0 then some 3
  else if 0xF0 ≤ b && b < 0xF8 then some 4
  else none

def front8 (b : UInt8) (rest : Text) : Front :=
  match announced? b with
  | none => .malformed
  | some size =>
    if rest.length + 1 < size then .cut
    else match Utf8.head? b rest with
      | some (c, taken) => .char c (taken + 1)
      | none => .malformed

/-- The number two bytes stand for. -/
def word (bigEndian : Bool) (a b : UInt8) : Nat :=
  if bigEndian then a.toNat * 256 + b.toNat else b.toNat * 256 + a.toNat

/-- A number from the upper half of the surrogates needs one from the lower half behind
it. -/
def front16 (bigEndian : Bool) : Text → Front
  | a :: b :: rest =>
    let n := word bigEndian a b
    if 0xDC00 ≤ n && n ≤ 0xDFFF then .malformed
    else if 0xD800 ≤ n && n ≤ 0xDBFF then
      match rest with
      | c :: d :: _ =>
        let m := word bigEndian c d
        if 0xDC00 ≤ m && m ≤ 0xDFFF then
          .char (Char.ofNat (0x10000 + (n - 0xD800) * 0x400 + (m - 0xDC00))) 4
        else .malformed
      | _ => .cut
    else .char (Char.ofNat n) 2
  | _ => .cut

def front : Encoding → Text → Front
  | _, [] => .cut
  | .utf8, b :: rest => front8 b rest
  | .utf16 bigEndian, t => front16 bigEndian t

/-- Decodes the complete characters of a block and gives the bytes that are left over. -/
def decode (e : Encoding) : Nat → Text → Option (List Char × Text)
  | 0, t => some ([], t)
  | fuel + 1, t =>
    match e.front t with
    | .cut => some ([], t)
    | .malformed => none
    | .char c size => do
      if !isAllowed c then none
      let (cs, left) ← decode e fuel (t.drop size)
      return (c :: cs, left)

end Encoding

/-- A stream in blocks of characters. If it is broken, what follows them cannot be decoded. -/
structure Stream where
  blocks : List (List Char)
  broken : Bool
deriving DecidableEq, Repr

namespace Stream

/-- The number of bytes in a block. Those left over from the block before count. -/
def blockSize : Nat := 512

/-- Decodes the blocks of a stream, of which the first has `room` bytes. -/
def decode (e : Encoding) : Nat → Nat → Text → Stream
  | 0, _, _ => ⟨[], true⟩
  | fuel + 1, room, t =>
    match e.decode room (t.take room) with
    | none => ⟨[], true⟩
    | some (cs, left) =>
      if t.length ≤ room then ⟨[cs], !left.isEmpty⟩
      else
        let more := decode e fuel blockSize (t.drop (room - left.length))
        { more with blocks := cs :: more.blocks }

def ofText (t : Text) : Stream :=
  let (e, body) := Encoding.detect t
  decode e (body.length + 1) (blockSize - (t.length - body.length)) body

end Stream

end OperandStack.Yaml
