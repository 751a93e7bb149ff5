import OperandStack.Engine.Replay

/-!
# Analysis of methods

`analyze` replays a method into an engine of its own and sums up what the engine told: how many
instructions it saw, how deep the stack got, what was returned, and what went wrong.
`Batch.run` does so for many methods; a batch may be cancelled before all of them have
started.
-/

namespace OperandStack

/-- What kept a method from being analysed to its end. -/
inductive Failure where
  | fault (f : Fault)
  | cancelled
  /-- No worker took the method. -/
  | refused (why : Text)
  /-- There are no workers. -/
  | noPool (why : Text)
deriving DecidableEq, Repr

def Failure.message : Failure → Text
  | .fault f => f.message
  | .cancelled => "context canceled"
  | .refused why => "submit: " ++ why
  | .noPool why => "analysis: worker pool: " ++ why

/-- What was found out about a method. -/
structure Finding where
  method : Text := []
  /-- Instructions the engine saw, one that failed included. -/
  instructions : Nat := 0
  /-- The greatest depth after an applied instruction. -/
  maxDepth : Nat := 0
  /-- The depth at the end of the code, or at the instruction that failed. -/
  finalDepth : Nat := 0
  /-- The value returned, known only at the end of the code. -/
  returned : Option Value := none
  failure : Option Failure := none
deriving DecidableEq, Repr

namespace Finding

def failed (r : Finding) : Bool := r.failure.isSome

/-- What is said of the failure, with the name of the method in front. -/
def message? (r : Finding) : Option Text := r.failure.map fun f => r.method ++ ": " ++ f.message

end Finding

/-- What the observer calls of a replay add up to. -/
structure Tally where
  maxDepth : Nat := 0
  finalDepth : Nat := 0
  returned : Option Value := none
  /-- Whether an instruction has failed; then the depth at the end does not count. -/
  faulted : Bool := false
deriving DecidableEq, Repr

namespace Tally

def observe (t : Tally) : HookCall → Tally
  | .method _ => t
  | .opcode _ _ s => { t with maxDepth := max t.maxDepth s.words }
  | .fault _ _ s _ => { t with finalDepth := s.words, faulted := true }
  | .codeEnd _ s returned =>
    { t with finalDepth := if t.faulted then t.finalDepth else s.words, returned }

def ofCalls (calls : List HookCall) : Tally := calls.foldl observe {}

end Tally

/-- Observers the analysis needs, beside those that were asked for. -/
def Hooks.tallied (h : Hooks) : Hooks := { h with opcode := true, fault := true, codeEnd := true }

/-- A finding and the calls of the observers that were asked for. -/
structure Analysis where
  finding : Finding
  calls : List HookCall
deriving DecidableEq, Repr

/-- The engine that a method is analysed with. -/
def Engine.forAnalysis (config : Config) : Engine :=
  Engine.new { config with hooks := config.hooks.tallied }

/-- Sums up a replay: what the engine came to and what it replied. -/
def sumUp (config : Config) (src : Source) (e : Engine) (replies : List Reply) :
    Except Crash Analysis :=
  let calls := replies.flatMap fun r => r.hooks.map (·.2)
  let tally := Tally.ofCalls calls
  let finding : Finding :=
    { method := src.name, instructions := e.count, maxDepth := tally.maxDepth,
      finalDepth := tally.finalDepth, returned := tally.returned }
  let asked := calls.filter config.hooks.wants
  match outcome replies with
  | some (.crash c) => .error c
  | some (.fault f) => .ok ⟨{ finding with failure := some (.fault f) }, asked⟩
  | none => .ok ⟨finding, asked⟩

/-- Analyses one method. -/
def analyze (config : Config) (src : Source) : Except Crash Analysis :=
  let (e, replies) := src.replay Engine.visit (Engine.forAnalysis config)
  sumUp config src e replies

/-! ## Batches -/

/-- The finding of a method that was not started. -/
def Finding.ofCancelled (src : Source) : Finding :=
  { method := src.name, failure := some .cancelled }

/-- The finding of a method that the pool did not take. -/
def Finding.ofRefused (src : Source) (why : Text) : Finding :=
  { method := src.name, failure := some (.refused why) }

/-- The finding that stands for a method once its task has ended; a crash leaves nothing behind. -/
def Finding.ofAnalysis : Except Crash Analysis → Finding
  | .ok a => a.finding
  | .error _ => {}

/-- What came of a batch: a finding for each method, and whether the batch was cancelled. -/
structure Batch where
  findings : List Finding
  failure : Option Failure := none
deriving DecidableEq, Repr

/-- Analyses methods in the order given. `cancelledAt` is the number of methods that were
started when a cancellation was noticed. A batch without methods has nothing to cancel. -/
def Batch.run (config : Config) (cancelledAt : Option Nat) (sources : List Source) : Batch :=
  if sources.isEmpty then ⟨[], none⟩
  else
    let started := cancelledAt.getD sources.length
    ⟨(sources.take started).map (fun src => .ofAnalysis (analyze config src)) ++
        (sources.drop started).map Finding.ofCancelled,
      cancelledAt.map fun _ => .cancelled⟩

/-- The number of findings that report a failure. -/
def Batch.failures (b : Batch) : Nat := b.findings.countP Finding.failed

end OperandStack
