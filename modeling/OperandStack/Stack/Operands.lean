import OperandStack.Fault
import OperandStack.Number.Word

/-!
# Operands

The contents of an operand stack as a list, the top first. Entries are counted one by one;
words count a long or a double twice.
-/

namespace OperandStack

abbrev Operands := List Value

namespace Operands

/-- The entries from the bottom to the top. -/
def toText (s : Operands) : Text := Text.bracketed ", " (s.reverse.map Value.toText)

/-- Words that the entries take. -/
def words (s : Operands) : Nat := (s.map Value.category).foldr (· + ·) 0

/-- The entry `n` places below the top. -/
def peek (s : Operands) (n : Int) : Except Underflow Value :=
  match s[n.toNat]? with
  | some v => if 0 ≤ n then .ok v else .error ⟨s.length, word64 (n + 1)⟩
  | none => .error ⟨s.length, word64 (n + 1)⟩

/-- The fewest top entries that make up `n` words. -/
def takeWords? : Nat → Operands → Option Operands
  | 0, _ => some []
  | _ + 1, [] => none
  | n + 1, v :: s => (takeWords? (n + 1 - v.category) s).map (v :: ·)

/-- How many entries below the top `skip` make up `n` words. -/
def countWords? (s : Operands) (skip : Nat) (n : Nat) : Option Nat :=
  go n (s.drop skip)
where
  go : Nat → Operands → Option Nat
  | 0, _ => some 0
  | _ + 1, [] => none
  | n + 1, v :: s => (go (n + 1 - v.category) s).map (· + 1)

/-- The stack ends before the words asked for are complete. -/
def shortfall (s : Operands) : Underflow := ⟨s.length, s.length + 1⟩

end Operands

end OperandStack
