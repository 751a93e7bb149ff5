import OperandStack.Engine.Step

/-!
# Visiting events

An engine first checks that an event is in order, then passes it on to the visitor behind
it, and applies it only if that visitor accepts it. `Engine.receive` is the last of these
steps; `Engine.visit` is an engine with no visitor behind it, `Engine.behind` one in front
of another visitor, and `Chain.visit` a row of engines.
-/

namespace OperandStack

/-- A visitor takes events one at a time and tells what came of each. -/
abbrev Visitor (σ : Type) := σ → Event → σ × Reply

namespace Engine

/-- The fault of an event that is out of order. -/
def objection? (e : Engine) (ev : Event) : Option Fault :=
  let only (allowed : Bool) (kind : EventKind) : Option Fault :=
    if allowed then none else some (.unexpected kind e.phase)
  match ev with
  | .method _ => none
  | .parameter _ _ => only (e.phase = .inMethod) .parameter
  | .code => only (e.phase = .inMethod) .code
  | .label _ => only (e.phase = .inCode) .label
  | .instruction _ => only (e.phase = .inCode) .instruction
  | .finish => only (e.phase ≠ .unattached) .finish

/-- Starts a method whose descriptor has been looked up; all that was known of the one before is
gone. -/
def declare (e : Engine) (m : MethodInfo) (looked : Except DescriptorError MethodDescriptor) :
    Engine × Reply :=
  let started : Engine :=
    { config := e.config, sampler := e.sampler, phase := .inMethod, method := m }
  let hooks := e.observe (.method m)
  match looked with
  | .error err =>
    let f := Fault.declaration m.name err
    ({ started with sticky := some f }, { result := some (.fault f), hooks })
  | .ok d =>
    let logs := e.log .debug "Visiting method"
      [("name", m.name), ("desc", m.descriptor), ("access", m.access.toText)]
    ({ started with descriptor := some d }, { hooks, logs })

def receiveMethod (e : Engine) (m : MethodInfo) : Engine × Reply :=
  e.declare m (MethodDescriptor.parse m.descriptor)

def receiveParameter (e : Engine) (name : Text) : Engine × Reply :=
  match e.sticky with
  | some f => (e, .refuse f)
  | none =>
    match e.descriptor with
    | none => (e, .crash .missing)
    | some d =>
      if e.names.length = d.params.length then
        let f := Fault.surplusName e.method.toText name
        ({ e with sticky := some f }, .refuse f)
      else ({ e with names := e.names ++ [name] }, .accepted)

/-- Begins the body with an empty stack. -/
def receiveCode (e : Engine) : Engine × Reply :=
  match e.sticky with
  | some f => (e, .refuse f)
  | none =>
    match e.descriptor with
    | none => (e, .crash .missing)
    | some d =>
      match LocalLayout.ofMethod? e.method.access.isStatic d e.names with
      | none => ({ e with sticky := some .tooManyParameters }, .refuse .tooManyParameters)
      | some layout =>
        ({ e with locals := some layout, stack := some [], recorded := [], phase := .inCode },
          .accepted)

/-- Control may merge at a label, so stored values are forgotten. -/
def receiveLabel (e : Engine) : Engine × Reply :=
  match e.sticky with
  | some f => (e, .refuse f)
  | none => ({ e with recorded := [] }, .accepted)

/-- Tells about an instruction that could not be applied. -/
def faulted (e : Engine) (index : Nat) (ins : Option Instruction) (f : Fault) : Engine × Reply :=
  ({ e with sticky := some f },
    { result := some (.fault f)
      hooks := e.observe (.fault index ins e.view f)
      logs := e.log .warn "Stack simulation failed"
        [("method", e.method.toText), ("index", Text.ofNat index),
          ("insn", instructionText ins), ("err", f.message)] })

/-- Tells about an applied instruction; of the log records a sample is written. -/
def applied (e : Engine) (index : Nat) (ins : Option Instruction) : Engine × Reply :=
  let hooks := e.observe (.opcode index ins e.view)
  if e.config.debugging then
    let (pass, sampler) := e.sampler.check
    let logs := e.log .trace "Applied instruction"
      [("method", e.method.toText), ("index", Text.ofNat index), ("insn", instructionText ins),
        ("depth", Text.ofNat e.view.length), ("stack", e.view.toText)]
    ({ e with sampler }, { hooks, logs := if pass then logs else [] })
  else (e, { hooks })

/-- The engine once an instruction event has been counted. -/
def counted (e : Engine) : Engine := { e with count := e.count + 1 }

/-- Tells what came of an instruction. -/
def told (index : Nat) (ins : Option Instruction) : Engine × Option Stop → Engine × Reply
  | (e, none) => e.applied index ins
  | (e, some (.fault f)) => e.faulted index ins f
  | (e, some (.crash c)) => (e, .crash c)

def receiveInstruction (e : Engine) (ins : Option Instruction) : Engine × Reply :=
  match e.sticky with
  | some f => (e, .refuse f)
  | none => told e.count ins (e.counted.apply e.count ins)

/-- Ends the method and reports what stopped it, if anything did. -/
def receiveFinish (e : Engine) : Engine × Reply :=
  let result := e.sticky.map Stop.fault
  match e.phase with
  | .inCode =>
    match e.stack with
    | none => (e, .crash .missing)
    | some s =>
      ({ e with stack := none, phase := .unattached },
        { result
          hooks := e.observe (.codeEnd e.method s e.returned)
          logs := e.log .debug "Method finished"
            [("method", e.method.toText), ("insns", Text.ofNat e.count),
              ("depth", Text.ofNat s.length),
              ("err", match e.sticky with
                | some f => f.message
                | none => "<nil>")] })
  | _ => ({ e with phase := .unattached }, { result })

/-- Applies an event that is in order and that the visitor behind has accepted. -/
def receive (e : Engine) : Event → Engine × Reply
  | .method m => e.receiveMethod m
  | .parameter name _ => e.receiveParameter name
  | .code => e.receiveCode
  | .label _ => e.receiveLabel
  | .instruction ins => e.receiveInstruction ins
  | .finish => e.receiveFinish

/-- An engine with no visitor behind it. -/
def visit : Visitor Engine := fun e ev =>
  match e.objection? ev with
  | some f => (e, .refuse f)
  | none => e.receive ev

/-- What an engine makes of an event, given what the visitor behind it, in state `s`, would
make of it. -/
def relay {σ : Type} (e : Engine) (ev : Event) (s : σ) (behind : σ × Reply) :
    (Engine × σ) × Reply :=
  match e.objection? ev with
  | some f => ((e, s), .refuse f)
  | none =>
    match behind.2.result with
    | some _ => ((e, behind.1), behind.2.below)
    | none =>
      let (e, own) := e.receive ev
      ((e, behind.1), behind.2.below.followedBy own)

/-- An engine in front of another visitor. -/
def behind {σ : Type} (next : Visitor σ) : Visitor (Engine × σ) := fun (e, s) ev =>
  e.relay ev s (next s ev)

end Engine

/-- A row of engines, each in front of the next. -/
def Chain.visit : Visitor (List Engine)
  | [], _ => ([], .accepted)
  | e :: rest, ev =>
    let ((e, rest), reply) := e.relay ev rest (Chain.visit rest ev)
    (e :: rest, reply)

end OperandStack
