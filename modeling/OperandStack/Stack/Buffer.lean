import OperandStack.Stack.Effect
import OperandStack.Stack.Storage

/-!
# Stacks with storage

A stack of values that keeps its storage when it shrinks. Entries above the top stay in the
storage until they are overwritten, so dropping a negative number of entries exposes them
again, as far as the storage reaches. When the storage is full, it grows with the next entry.
-/

namespace OperandStack

/-- `live` holds the entries, top first; `room` the storage above the top, nearest first. -/
structure Stack where
  live : Operands := []
  room : List Value := []
deriving DecidableEq, Repr

namespace Stack

def empty : Stack := {}

def size (s : Stack) : Nat := s.live.length

/-- Fresh storage above one new entry, when `size` entries filled the storage before. -/
def freshRoom (size : Nat) : List Value :=
  List.replicate (Storage.grow size - (size + 1)) .unknown

def push (s : Stack) (v : Value) : Stack :=
  match s.room with
  | [] => ⟨v :: s.live, freshRoom s.live.length⟩
  | _ :: room => ⟨v :: s.live, room⟩

def pop (s : Stack) : Except Underflow (Value × Stack) :=
  match s.live with
  | [] => .error ⟨0, 1⟩
  | v :: rest => .ok (v, ⟨rest, v :: s.room⟩)

/-- Moves `n` entries from the top into the room above. -/
def shrink (s : Stack) (n : Nat) : Stack :=
  ⟨s.live.drop n, (s.live.take n).reverse ++ s.room⟩

/-- Moves `n` entries from the room back onto the stack, if there are as many. -/
def expose? (s : Stack) (n : Nat) : Option Stack :=
  if n ≤ s.room.length then some ⟨(s.room.take n).reverse ++ s.live, s.room.drop n⟩ else none

/-- Drops the top `n` entries. -/
def popN (s : Stack) (n : Int) : Except Stop Stack :=
  match n with
  | .ofNat k =>
    if k ≤ s.live.length then .ok (s.shrink k)
    else .error (.fault (.underflow ⟨s.live.length, k⟩))
  | .negSucc k =>
    match s.expose? (k + 1) with
    | some s => .ok s
    | none => .error (.crash .bounds)

def peek (s : Stack) (n : Int) : Except Underflow Value := s.live.peek n

/-- Overwrites the entry `n` places below the top. -/
def replace (s : Stack) (n : Int) (v : Value) : Except Underflow Stack :=
  if 0 ≤ n && n < s.live.length then .ok { s with live := s.live.set n.toNat v }
  else .error ⟨s.live.length, word64 (n + 1)⟩

/-- Requests to a stack. -/
inductive Request where
  | push (v : Value)
  | pop
  | popN (n : Int)
  | peek (n : Int)
  | replace (n : Int) (v : Value)
  | effect (ins : Option Instruction)
  | contents
deriving DecidableEq, Repr

inductive Answer where
  | done
  | value (v : Value)
  /-- The effect of an instruction and the size it leads to. -/
  | effect (e : Effect) (next : Int)
  /-- The entries, bottom first. -/
  | contents (vs : List Value)
  | stopped (why : Stop)
deriving DecidableEq, Repr

/-- The effect of an instruction on a view, as an answer; an absent instruction has none. -/
def effectAnswer (ins : Option Instruction) (view : Operands) : Answer :=
  match ins with
  | none => .stopped (.crash .missing)
  | some ins =>
    match ins.effect view with
    | .ok e => .effect e (e.nextSize view.length)
    | .error f => .stopped (.fault f)

/-- What can be read through a reference to a stack; an absent stack reads as an empty one. -/
def view (s : Option Stack) : Operands :=
  match s with
  | some s => s.live
  | none => []

/-- Answers a request made through a reference that may be absent. Changing an absent stack
is a crash. -/
def respond (s : Option Stack) (r : Request) : Option Stack × Answer :=
  match r with
  | .peek n =>
    match (view s).peek n with
    | .ok v => (s, .value v)
    | .error u => (s, .stopped (.fault (.underflow u)))
  | .effect ins => (s, effectAnswer ins (view s))
  | .contents => (s, .contents (view s).reverse)
  | .push v =>
    match s with
    | some s => (some (s.push v), .done)
    | none => (none, .stopped (.crash .missing))
  | .pop =>
    match s with
    | some s =>
      match s.pop with
      | .ok (v, rest) => (some rest, .value v)
      | .error u => (some s, .stopped (.fault (.underflow u)))
    | none => (none, .stopped (.crash .missing))
  | .popN n =>
    match s with
    | some s =>
      match s.popN n with
      | .ok rest => (some rest, .done)
      | .error why => (some s, .stopped why)
    | none => (none, .stopped (.crash .missing))
  | .replace n v =>
    match s with
    | some s =>
      match s.replace n v with
      | .ok s => (some s, .done)
      | .error u => (some s, .stopped (.fault (.underflow u)))
    | none => (none, .stopped (.crash .missing))

end Stack

end OperandStack
