/-!
# Machine words

Counts and operands are 64-bit two's complement integers. They are kept as integers, and
`word64` brings the result of an addition back into range.
-/

namespace OperandStack

/-- The 64-bit two's complement integer congruent to `n`. -/
def word64 (n : Int) : Int := n.bmod (Nat.pow 2 64)

theorem word64_of_range {n : Int} (lo : -9223372036854775808 ≤ n) (hi : n < 9223372036854775808) :
    word64 n = n := by
  have size : Nat.pow 2 64 = 18446744073709551616 := rfl
  simp only [word64, size, Int.bmod]
  split <;> omega

end OperandStack
