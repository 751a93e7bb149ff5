import OperandStack.Engine.Visit

/-!
# Engines that share their stacks

Engines do not own the stacks they work on. A body takes a stack out of a common pool when it
begins, and the stack goes back to the pool, emptied, when the body ends or when the engine turns to
the next method. `Workshop` has many engines side by side, each with the stack it has in hand, and
the pool between them. Which of the idle stacks an engine is given is up to the pool.
-/

namespace OperandStack

/-- An event for one of the engines, and the idle stack that the pool would give out. -/
structure Turn where
  engine : Nat
  event : Event
  /-- The place of the stack among the idle ones; where there is none, a new one is made. -/
  pick : Nat
deriving DecidableEq, Repr

/-- The events for one engine, in order. -/
def Turn.eventsOf (i : Nat) (turns : List Turn) : List Event :=
  (turns.filter (·.engine = i)).map (·.event)

/-- Stacks are known by numbers. What `crew` says of a stack does not count: the entries lie in
`contents`. -/
structure Workshop where
  crew : Nat → Engine
  /-- The stack that an engine has in hand. -/
  held : Nat → Option Nat
  /-- The entries of each stack. -/
  contents : Nat → Operands
  /-- The stacks in the pool. -/
  idle : List Nat
  /-- The number of stacks made. -/
  made : Nat

namespace Workshop

/-- New engines and no stacks. -/
def start (configs : Nat → Config) : Workshop :=
  { crew := fun i => Engine.new (configs i), held := fun _ => none, contents := fun _ => [],
    idle := [], made := 0 }

/-- An engine with the stack that it has in hand. -/
def engine (w : Workshop) (i : Nat) : Engine :=
  { w.crew i with stack := (w.held i).map w.contents }

/-- Sets what an engine knows beside its stack. -/
def put (w : Workshop) (i : Nat) (e : Engine) : Workshop :=
  { w with crew := fun j => if j = i then e else w.crew j }

/-- Sets the entries of the stack that an engine has in hand. -/
def fill (w : Workshop) (i : Nat) (entries : Option Operands) : Workshop :=
  match w.held i, entries with
  | some a, some s => { w with contents := fun b => if b = a then s else w.contents b }
  | _, _ => w

/-- An engine puts its stack back into the pool, emptied. -/
def release (w : Workshop) (i : Nat) : Workshop :=
  match w.held i with
  | none => w
  | some a =>
    { w with
      held := fun j => if j = i then none else w.held j
      contents := fun b => if b = a then [] else w.contents b
      idle := a :: w.idle }

/-- An engine takes a stack out of the pool, as it lies there. -/
def acquire (w : Workshop) (i : Nat) (pick : Nat) : Workshop :=
  match w.idle[pick]? with
  | some a =>
    { w with held := fun j => if j = i then some a else w.held j, idle := w.idle.eraseIdx pick }
  | none =>
    { w with
      held := fun j => if j = i then some w.made else w.held j
      contents := fun b => if b = w.made then [] else w.contents b
      made := w.made + 1 }

/-- An engine visits an event with the stack in its hand. -/
def visit (w : Workshop) (t : Turn) : Workshop × Reply :=
  let e := w.engine t.engine
  let (after, reply) := e.visit t.event
  let placed := w.put t.engine after
  match t.event with
  | .method _ => (placed.release t.engine, reply)
  | .code => (if reply.result.isNone then placed.acquire t.engine t.pick else placed, reply)
  | .finish => (if e.phase = .inCode then placed.release t.engine else placed, reply)
  | _ => (placed.fill t.engine after.stack, reply)

/-- The workshop after some turns. -/
def after (w : Workshop) (turns : List Turn) : Workshop := turns.foldl (fun w t => (w.visit t).1) w

/-- The replies of one engine to the events for it. -/
def repliesOf (i : Nat) (w : Workshop) : List Turn → List Reply
  | [] => []
  | t :: turns =>
    (if t.engine = i then [(w.visit t).2] else []) ++ repliesOf i (w.visit t).1 turns

end Workshop

end OperandStack
