import OperandStack.Text.Basic

/-!
# Access flags

The modifiers of a method as a set of flag bits, with the keyword of each.
-/

namespace OperandStack

structure Access where
  bits : UInt16
deriving DecidableEq, Repr

namespace Access

def empty : Access := ⟨0⟩

/-- Modifier keywords and their flags, in the order in which they are shown. -/
def keywords : List (Text × Access) :=
  [("public", ⟨0x0001⟩), ("private", ⟨0x0002⟩), ("protected", ⟨0x0004⟩), ("static", ⟨0x0008⟩),
    ("final", ⟨0x0010⟩), ("synchronized", ⟨0x0020⟩), ("bridge", ⟨0x0040⟩),
    ("varargs", ⟨0x0080⟩), ("native", ⟨0x0100⟩), ("abstract", ⟨0x0400⟩), ("strict", ⟨0x0800⟩),
    ("synthetic", ⟨0x1000⟩), ("mandated", ⟨0x8000⟩)]

def union (a b : Access) : Access := ⟨a.bits ||| b.bits⟩

/-- Whether the sets have a flag in common. -/
def meets (a b : Access) : Bool := a.bits &&& b.bits ≠ 0

def isStatic (a : Access) : Bool := a.meets ⟨0x0008⟩

def toText (a : Access) : Text :=
  Text.join " " ((keywords.filter fun k => a.meets k.2).map (·.1))

/-- The flag of a modifier keyword. -/
def ofKeyword? (word : Text) : Option Access := keywords.lookup word

end Access

end OperandStack
