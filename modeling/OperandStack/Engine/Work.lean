import OperandStack.Engine.Basic

/-!
# Work on an engine

Operations work on an engine in place: they take entries off its stack, put others there and
write its other parts, and what they have changed before they stop stays changed. A `Work` reads
and writes an engine and may stop at any point.
-/

namespace OperandStack

abbrev Work := EStateM Stop Engine

/-- An underflow is blamed on the instruction that met it. -/
def Stop.blame (op : Opcode) (index : Nat) : Stop → Stop
  | .fault (.underflow u) => .fault (.underflowAt op index u)
  | stop => stop

namespace Work

/-- What the work of an instruction leaves, and why it stopped if it did. -/
def on (w : Work Unit) (op : Opcode) (index : Nat) (e : Engine) : Engine × Option Stop :=
  match w.run e with
  | .ok _ e => (e, none)
  | .error stop e => (e, some (stop.blame op index))

def fail {α : Type} (f : Fault) : Work α := throw (.fault f)

def crash {α : Type} (c : Crash) : Work α := throw (.crash c)

def malformed {α : Type} (op : Opcode) (why : Malformation) : Work α := fail (.malformed op why)

def stack : Work Operands := do
  match (← get).stack with
  | some s => pure s
  | none => crash .missing

def setStack (s : Operands) : Work Unit := modify fun e => { e with stack := some s }

def push (v : Value) : Work Unit := do setStack (v :: (← stack))

/-- Pushes entries that are given top first. -/
def pushAll (vs : Operands) : Work Unit := do setStack (vs ++ (← stack))

/-- Stops unless the stack has `n` entries. -/
def require (n : Nat) : Work Unit := do
  let s ← stack
  if s.length < n then fail (.underflow ⟨s.length, n⟩)

/-- Takes the top `n` entries off the stack, top first. -/
def pop (n : Nat) : Work Operands := do
  require n
  let s ← stack
  setStack (s.drop n)
  pure (s.take n)

/-- Drops the top `n` entries. -/
def drop (n : Nat) : Work Unit := do
  require n
  setStack ((← stack).drop n)

/-- How many entries below the top `skip` make up `n` words. -/
def entries (skip n : Nat) : Work Nat := do
  let s ← stack
  match Operands.takeWords? n (s.drop skip) with
  | some reached => pure reached.length
  | none => fail (.underflow s.shortfall)

/-- Remembers the value of a slot, if that is wanted. -/
def record (slot : Int) (v : Value) : Work Unit :=
  modify fun e => { e with
    recorded := if e.config.trackLocals then e.recorded.store slot v else e.recorded }

/-- Marks every copy of the reference allocated at a site as constructed. -/
def construct (site : Int) : Work Unit :=
  modify fun e => { e with
    stack := e.stack.map (·.map fun v => if v.site = site then v.initialized else v)
    recorded := e.recorded.construct site }

end Work

end OperandStack
