/-!
# Sampling

A sampler lets through one record in `every`, the first of them the `every`-th; zero lets
all through. The count wraps around at 32 bits.
-/

namespace OperandStack

structure Sampler where
  every : UInt32
  count : UInt32 := 0
deriving DecidableEq, Repr

namespace Sampler

/-- Decides on one record. -/
def check (s : Sampler) : Bool × Sampler :=
  if s.every = 0 then (true, s)
  else
    let count := s.count + 1
    (count % s.every = 0, { s with count })

/-- Decides by a sampler that may be absent; without one every record passes. -/
def check? : Option Sampler → Bool × Option Sampler
  | none => (true, none)
  | some s => (s.check.1, some s.check.2)

/-- The numbers of the records that pass, of `calls` records numbered from `first`. -/
def passed (s : Option Sampler) (first : Nat) : Nat → List Nat
  | 0 => []
  | calls + 1 =>
    let (pass, s) := check? s
    let rest := passed s (first + 1) calls
    if pass then first :: rest else rest

end Sampler

end OperandStack
