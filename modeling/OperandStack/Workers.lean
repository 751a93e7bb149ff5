import OperandStack.Text.Basic

/-!
# Worker pools

Methods are analysed by the workers of a pool. How many there are depends on the number of methods
and of processors. Nothing is known of a pool but which events can come after those that have come,
and what is assumed of them: that each task is run once (`Pool.RunsOnce`). `Pool.bounded` is the
pool that takes a task whenever one of its workers has none.
-/

namespace OperandStack

/-- Methods each further worker has to have. -/
def methodsPerWorker : Int := 4

/-- The number of workers for a number of methods: a share of them, but at least one and at
most one a processor. -/
def workersFor (processors methods : Int) : Int :=
  let share := methods.tdiv methodsPerWorker
  if processors < share then processors else if share = 0 then 1 else share

/-- The capacity of a pool that is asked to have the given size; without a positive one it gets a
worker a processor. -/
def poolCapacity (processors size : Int) : Int := if size ≤ 0 then processors else size

/-- What happens at a pool. -/
inductive PoolEvent where
  | accepted (task : Nat)
  | refused (task : Nat) (why : Text)
  /-- A worker takes up a task that was accepted. -/
  | begun (task : Nat)
  | ended (task : Nat)
  | closed
deriving DecidableEq, Repr

structure Pool where
  capacity : Int
  /-- Whether an event can come after those of the past, the latest of them first. -/
  admits : List PoolEvent → PoolEvent → Bool
  /-- Whether a crash ends no more than the task. -/
  recovers : Bool

namespace Pool

/-- Until it is closed, a pool refuses no task, and takes one at the latest when those before have
ended. What it has accepted it runs once. -/
structure RunsOnce (p : Pool) : Prop where
  admits_refused : ∀ past task why, .closed ∉ past → p.admits past (.refused task why) = false
  admits_accepted : ∀ past task, .closed ∉ past →
    (∀ other, .accepted other ∈ past → .ended other ∈ past) → p.admits past (.accepted task)
  once : ∀ past task, p.admits past (.begun task) → .accepted task ∈ past ∧ .begun task ∉ past
  /-- Of the tasks that wait, one begins at the latest when those that have begun have ended. -/
  begins : ∀ past task, .accepted task ∈ past → .begun task ∉ past →
    (∀ other, .begun other ∈ past → .ended other ∈ past) → ∃ next, p.admits past (.begun next)

/-- The tasks that were accepted and have not ended. -/
def inHand (past : List PoolEvent) : Nat :=
  past.countP fun
    | .accepted task => .ended task ∉ past
    | _ => false

def bounded (capacity : Int) : Pool where
  capacity
  admits past
    | .accepted _ => .closed ∉ past && decide (inHand past < capacity)
    | .refused _ why => .closed ∈ past && why == "this pool has been closed"
    | .begun task => .accepted task ∈ past && .begun task ∉ past
    | .ended task => .begun task ∈ past && .ended task ∉ past
    | .closed => true
  recovers := true

end Pool

end OperandStack
