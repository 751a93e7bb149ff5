import OperandStack.Access
import OperandStack.Locals.Layout
import OperandStack.Locals.Recorded
import OperandStack.Sampling
import OperandStack.Stack.Operands

/-!
# Engines

An engine follows the events of one method at a time and keeps the symbolic operand stack
of its body. This module has the events, the state of an engine and what an engine tells
about an event: the verdict, the calls of its observers, and log records.
-/

namespace OperandStack

/-- The declaration of a method. -/
structure MethodInfo where
  access : Access := .empty
  name : Text := []
  descriptor : Text := []
  signature : Text := []
  exceptions : List Text := []
deriving DecidableEq, Repr

def MethodInfo.toText (m : MethodInfo) : Text := m.name ++ m.descriptor

/-- The events of a method, in their order: a declaration, parameter names, and if there is
a body its code with instructions and labels, then the end. -/
inductive Event where
  | method (m : MethodInfo)
  | parameter (name : Text) (access : Access)
  | code
  | instruction (ins : Option Instruction)
  | label (label : Option Label)
  | finish
deriving DecidableEq, Repr

/-- A call of an observer. Stacks are given top first. -/
inductive HookCall where
  | method (m : MethodInfo)
  /-- After an instruction has been applied. -/
  | opcode (index : Nat) (ins : Option Instruction) (stack : Operands)
  /-- After an instruction has failed; the stack is as it was before. -/
  | fault (index : Nat) (ins : Option Instruction) (stack : Operands) (f : Fault)
  /-- At the end of a body. -/
  | codeEnd (m : MethodInfo) (stack : Operands) (returned : Option Value)
deriving DecidableEq, Repr

/-- Which observers are present. -/
structure Hooks where
  method : Bool := false
  opcode : Bool := false
  fault : Bool := false
  codeEnd : Bool := false
deriving DecidableEq, Repr

namespace Hooks

def none : Hooks := {}

def all : Hooks := ⟨true, true, true, true⟩

def wants (h : Hooks) : HookCall → Bool
  | .method _ => h.method
  | .opcode _ _ _ => h.opcode
  | .fault _ _ _ _ => h.fault
  | .codeEnd _ _ _ => h.codeEnd

end Hooks

inductive LogLevel where
  | trace
  | debug
  | warn
deriving DecidableEq, Repr

structure LogRecord where
  level : LogLevel
  message : Text
  attributes : List (Text × Text)
deriving DecidableEq, Repr

structure Config where
  hooks : Hooks := .none
  /-- Remember stored values and reload them. -/
  trackLocals : Bool := false
  /-- Log what this engine does. -/
  debug : Bool := false
  /-- Log what every engine does. -/
  debugAll : Bool := false
  /-- Of the applied instructions, log one in so many; zero logs all. -/
  debugEvery : UInt32 := 0
deriving DecidableEq, Repr

def Config.debugging (c : Config) : Bool := c.debug || c.debugAll

structure Engine where
  config : Config
  phase : Phase := .unattached
  method : MethodInfo := {}
  descriptor : Option MethodDescriptor := none
  names : List Text := []
  locals : Option LocalLayout := none
  stack : Option Operands := none
  recorded : Recorded := []
  returned : Option Value := none
  /-- Allocations seen in the body. -/
  sites : Int := 0
  /-- Instruction events seen in the body. -/
  count : Nat := 0
  /-- What stopped the method; it outlives the method until the next one. -/
  sticky : Option Fault := none
  sampler : Sampler
deriving DecidableEq, Repr

/-- What came of an event. Observer calls carry the distance of their engine from the one
that was addressed. -/
structure Reply where
  result : Option Stop := none
  hooks : List (Nat × HookCall) := []
  logs : List LogRecord := []
deriving DecidableEq, Repr

namespace Reply

def accepted : Reply := {}

def refuse (f : Fault) : Reply := { result := some (.fault f) }

def crash (c : Crash) : Reply := { result := some (.crash c) }

/-- Observer calls as seen from one engine further up. -/
def below (r : Reply) : Reply := { r with hooks := r.hooks.map fun h => (h.1 + 1, h.2) }

/-- What was told before, followed by the verdict and the rest. -/
def followedBy (r s : Reply) : Reply := ⟨s.result, r.hooks ++ s.hooks, r.logs ++ s.logs⟩

end Reply

namespace Engine

def new (config : Config) : Engine := { config, sampler := ⟨config.debugEvery, 0⟩ }

/-- The stack inside a method body; elsewhere it reads as empty. -/
def view (e : Engine) : Operands :=
  match e.phase with
  | .inCode => e.stack.getD []
  | _ => []

/-- The call of an observer, if it is present. -/
def observe (e : Engine) (call : HookCall) : List (Nat × HookCall) :=
  if e.config.hooks.wants call then [(0, call)] else []

/-- A log record, if debugging is on. -/
def log (e : Engine) (level : LogLevel) (message : Text) (attributes : List (Text × Text)) :
    List LogRecord :=
  if e.config.debugging then [⟨level, message, attributes⟩] else []

end Engine

end OperandStack
