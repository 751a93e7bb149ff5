import OperandStack.Text.Utf8

/-!
# Rules of a grammar

A rule takes characters from a place on or fails; of two alternatives the second is tried only
if the first fails. Besides, a rule remembers how far any of its named parts got, also one that
was given up afterwards: that is where a mistake is reported.
-/

namespace OperandStack.Toml

def isSpace (c : Char) : Bool := c = ' ' || c = '\t'

def isBreak (c : Char) : Bool := c = '\r' || c = '\n'

/-- A place in a file. Lines are numbered from one, and every break counts. -/
structure Place where
  rest : List Char
  index : Nat := 0
  line : Nat := 1
  /-- The number of characters in the file. -/
  size : Nat
deriving DecidableEq, Repr

namespace Place

def start (cs : List Char) : Place := { rest := cs, size := cs.length }

/-- The place `n` characters further. -/
def advance (p : Place) (n : Nat) : Place :=
  { p with
    rest := p.rest.drop n
    index := p.index + n
    line := p.line + (p.rest.take n).countP isBreak }

end Place

/-- A rule gets the furthest end of a part so far and the place where it starts. It gives the
new furthest end, and what it read with the place behind it, unless it fails. -/
def Rule (α : Type) := Nat → Place → Nat × Option (α × Place)

namespace Rule

variable {α β : Type}

instance : Monad Rule where
  pure a := fun furthest p => (furthest, some (a, p))
  bind r f := fun furthest p =>
    match r furthest p with
    | (furthest, none) => (furthest, none)
    | (furthest, some (a, q)) => f a furthest q

instance : Alternative Rule where
  failure := fun furthest _ => (furthest, none)
  orElse r s := fun furthest p =>
    match r furthest p with
    | (furthest, none) => s () furthest p
    | found => found

/-- A named part: if it reads anything, its end is remembered. -/
def part (r : Rule α) : Rule α := fun furthest p =>
  match r furthest p with
  | (furthest, some (a, q)) =>
    (if p.index < q.index then max furthest q.index else furthest, some (a, q))
  | failed => failed

/-- The place that was reached. -/
def here : Rule Place := fun furthest p => (furthest, some (p, p))

/-- A character with a property. -/
def one (is : Char → Bool) : Rule Unit := fun furthest p =>
  (furthest, if p.rest.head?.any is then some ((), p.advance 1) else none)

/-- The characters of a word. -/
def word (w : String) : Rule Unit := fun furthest p =>
  (furthest, if p.rest.take w.length = w.toList then some ((), p.advance w.length) else none)

/-- All characters with a property, of which there may be none. -/
def span (is : Char → Bool) : Rule Unit := fun furthest p =>
  (furthest, some ((), p.advance (p.rest.takeWhile is).length))

/-- At least one character with a property. -/
def spanOne (is : Char → Bool) : Rule Unit := do
  one is
  span is

/-- The end of the file. -/
def finish : Rule Unit := fun furthest p =>
  (furthest, if p.rest.isEmpty then some ((), p) else none)

/-- What a rule reads, as it is written. -/
def written (r : Rule α) : Rule (List Char) := do
  let p ← here
  let _ ← r
  return p.rest.take ((← here).index - p.index)

/-- A rule at most `n` times. -/
def upTo (r : Rule α) : Nat → Rule (List α)
  | 0 => pure []
  | n + 1 => (do
    let a ← r
    return a :: (← upTo r n)) <|> pure []

/-- A rule as often as it fits. Each time it reads at least one character. -/
def many (r : Rule α) : Rule (List α) := do upTo r ((← here).size + 1)

/-- A rule as often as it fits, and at least once. -/
def manyOne (r : Rule α) : Rule (List α) := do
  let a ← r
  return a :: (← many r)

/-- A rule that need not fit. -/
def maybe (r : Rule α) : Rule Unit := (do let _ ← r) <|> pure ()

/-- A rule `n` times. -/
def times (r : Rule α) : Nat → Rule Unit
  | 0 => pure ()
  | n + 1 => do
    let _ ← r
    times r n

/-- Applies a rule to a file: gives what it read, or the furthest end of a part. -/
def apply (r : Rule α) (cs : List Char) : Except Nat α :=
  match r 0 (.start cs) with
  | (_, some (a, _)) => .ok a
  | (furthest, none) => .error furthest

end Rule

end OperandStack.Toml
