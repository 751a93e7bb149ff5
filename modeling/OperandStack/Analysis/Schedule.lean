import OperandStack.Analysis
import OperandStack.Engine.Consult
import OperandStack.Workers

/-!
# Schedules of batches

The methods of a batch are analysed by tasks that share one descriptor cache. A task goes on by
single accesses to the cache, each of which is atomic; what other tasks do falls between them. The
batch submits the methods in order to a pool of workers and looks before each of them whether it
has been cancelled. When a method is taken, and when its task begins, is up to the pool.

`Schedule.step` makes one move of the batch, of the pool, of a task or of whoever cancels. A
schedule is a list of moves.
-/

namespace OperandStack

variable {σ : Type}

/-- Analyses one method with a descriptor cache at hand. -/
def analyzeCached (store : DescriptorCache.Store σ) (config : Config) (src : Source)
    (cache : DescriptorCache σ) : Except Crash Analysis × DescriptorCache σ :=
  let ((e, cache), replies) :=
    src.replay (Engine.visitCached store) (Engine.forAnalysis config, cache)
  (sumUp config src e replies, cache)

/-- A method in the middle of its replay. -/
structure Job where
  engine : Engine
  /-- What has still to be delivered. -/
  rest : List (Option Event)
  replies : List Reply := []
  /-- A descriptor that was parsed for the next event and is not in the cache yet. -/
  parsed : Option SharedDescriptor := none
deriving DecidableEq, Repr

inductive Task where
  | waiting
  | submitted
  | running (job : Job)
  | finished (finding : Finding)
  | crashed (crash : Crash)
deriving DecidableEq, Repr

namespace Task

def isCrashed : Task → Bool
  | .crashed _ => true
  | _ => false

def isDone : Task → Bool
  | .finished _ | .crashed _ => true
  | _ => false

/-- What stands in the place of the result. -/
def result : Task → Finding
  | .finished f => f
  | _ => {}

end Task

namespace Job

def start (config : Config) (src : Source) : Job :=
  { engine := Engine.forAnalysis config, rest := src.events }

/-- Takes the reply to an event in front of `later`. -/
def advance (job : Job) (stop : Bool) (later : List (Option Event)) (r : Engine × Reply) : Job :=
  { engine := r.1
    replies := job.replies ++ [r.2]
    rest := match r.2.result with
      | some (.crash _) => []
      | some (.fault _) => if stop then [] else later
      | none => later }

/-- Goes on up to and including the next access to the cache; none at the end of the replay. -/
def step (store : DescriptorCache.Store σ) (job : Job) (stop : Bool) (cache : DescriptorCache σ) :
    Option (Job × DescriptorCache σ) :=
  match job.rest with
  | [] => none
  | none :: _ =>
    some ({ job with rest := [], replies := job.replies ++ [.crash .codeElement] }, cache)
  | some ev :: later =>
    match job.engine.consults? ev with
    | none => some (job.advance stop later (job.engine.visit ev), cache)
    | some desc =>
      match job.parsed with
      | some object =>
        some (job.advance stop later (job.engine.resume ev (.ok object.parsed)),
          cache.add store desc object)
      | none =>
        match cache.get? store desc with
        | (cache, some object) =>
          some (job.advance stop later (job.engine.resume ev (.ok object.parsed)), cache)
        | (cache, none) =>
          match cache.parse desc with
          | (cache, .ok object) => some ({ job with parsed := some object }, cache)
          | (cache, .error err) =>
            some (job.advance stop later (job.engine.resume ev (.error err)), cache)

/-- What becomes of the task of a replay that has come to its end. -/
def outcome (job : Job) (config : Config) (src : Source) : Task :=
  match sumUp config src job.engine job.replies with
  | .ok a => .finished a.finding
  | .error c => .crashed c

end Job

namespace Schedule

structure State (σ : Type) where
  /-- Each method with its task. -/
  tasks : List (Source × Task)
  cache : DescriptorCache σ
  /-- What has happened at the pool, the latest first. -/
  past : List PoolEvent := []
  /-- Methods that have been submitted. -/
  next : Nat := 0
  /-- The batch was not found cancelled before the next method, which is about to be submitted. -/
  admitted : Bool := false
  cancelled : Bool := false
  /-- The method before which the batch was found cancelled. -/
  stopped : Option Nat := none
deriving DecidableEq, Repr

/-- The moves of a schedule. -/
inductive Move where
  | cancel
  /-- The batch looks whether it has been cancelled. -/
  | look
  /-- The pool accepts the next method. -/
  | submit
  /-- The pool refuses the next method. -/
  | refuse (why : Text)
  /-- A worker takes up the task of a method. -/
  | takeUp (method : Nat)
  /-- The task of a method goes on. -/
  | work (method : Nat)
deriving DecidableEq, Repr

def start (sources : List Source) (cache : DescriptorCache σ) : State σ :=
  { tasks := sources.map fun src => (src, .waiting), cache }

/-- The number of workers of a batch; a setting that is not positive leaves the choice open. -/
def workers (processors setting methods : Int) : Int :=
  poolCapacity processors (if setting ≤ 0 then workersFor processors methods else setting)

/-- The pool of a batch, if there is one to be had. -/
def poolFor (pools : Int → Except Text Pool) (processors setting methods : Int) :
    Except Failure Pool :=
  (pools (workers processors setting methods)).mapError .noPool

namespace State

/-- No more methods are submitted. -/
def isHandedOut (s : State σ) : Bool := s.stopped.isSome || s.tasks.length ≤ s.next

/-- A crash has ended everything. -/
def isDown (pool : Pool) (s : State σ) : Bool :=
  !pool.recovers && s.tasks.any (·.2.isCrashed)

/-- The number of methods that results come from. -/
def started (s : State σ) : Nat := s.stopped.getD s.tasks.length

/-- What the batch returns, once all tasks that were submitted are done. -/
def returned? (pool : Pool) (s : State σ) : Option Batch :=
  if s.tasks.isEmpty then some ⟨[], none⟩
  else if !s.isDown pool && s.isHandedOut && (s.tasks.take s.started).all (·.2.isDone) then
    some
      { findings := (s.tasks.take s.started).map (·.2.result) ++
          (s.tasks.drop s.started).map (.ofCancelled ·.1)
        failure := if s.cancelled then some .cancelled else none }
  else none

/-- Goes on to the next method with the answer of the pool to the submission of this one. -/
def answered (pool : Pool) (s : State σ) (answer : PoolEvent) (task : Source → Task) :
    Option (State σ) :=
  match s.tasks[s.next]? with
  | some (src, _) =>
    if s.admitted && pool.admits s.past answer then
      some { s with
        tasks := s.tasks.set s.next (src, task src)
        past := answer :: s.past
        next := s.next + 1
        admitted := false }
    else none
  | none => none

end State

/-- Makes a move, if it can be made. -/
def step (store : DescriptorCache.Store σ) (pool : Pool) (config : Config) (s : State σ)
    (move : Move) : Option (State σ) :=
  if s.isDown pool then none
  else
    match move with
    | .cancel => if s.cancelled then none else some { s with cancelled := true }
    | .look =>
      if s.isHandedOut || s.admitted then none
      else if s.cancelled then some { s with stopped := some s.next }
      else some { s with admitted := true }
    | .submit => s.answered pool (.accepted s.next) fun _ => .submitted
    | .refuse why => s.answered pool (.refused s.next why) fun src => .finished (.ofRefused src why)
    | .takeUp i =>
      match s.tasks[i]? with
      | some (src, .submitted) =>
        if pool.admits s.past (.begun i) then
          some { s with
            tasks := s.tasks.set i (src, .running (Job.start config src))
            past := .begun i :: s.past }
        else none
      | _ => none
    | .work i =>
      match s.tasks[i]? with
      | some (src, .running job) =>
        match job.step store src.stop s.cache with
        | some (job, cache) => some { s with tasks := s.tasks.set i (src, .running job), cache }
        | none =>
          some { s with
            tasks := s.tasks.set i (src, job.outcome config src)
            past := .ended i :: s.past }
      | _ => none

/-- The state after a schedule, if all its moves can be made. -/
def run (store : DescriptorCache.Store σ) (pool : Pool) (config : Config) (s : State σ)
    (moves : List Move) : Option (State σ) :=
  moves.foldlM (step store pool config) s

end Schedule

end OperandStack
