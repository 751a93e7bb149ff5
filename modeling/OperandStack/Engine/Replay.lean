import OperandStack.Engine.Visit

/-!
# Replaying methods

A method source delivers the events of one method. It either stops at the first event that
fails, or delivers all of them; in both cases the first failure is its result.
-/

namespace OperandStack

/-- The replies to the events delivered, in order, and the state of the visitor. Something
that is no event at all cannot be delivered. -/
def deliver {σ : Type} (visit : Visitor σ) (stop : Bool) (s : σ) :
    List (Option Event) → σ × List Reply
  | [] => (s, [])
  | none :: _ => (s, [.crash .codeElement])
  | some ev :: rest =>
    let (s, reply) := visit s ev
    match reply.result with
    | some (.crash _) => (s, [reply])
    | some (.fault _) =>
      if stop then (s, [reply])
      else
        let (s, replies) := deliver visit stop s rest
        (s, reply :: replies)
    | none =>
      let (s, replies) := deliver visit stop s rest
      (s, reply :: replies)

/-- The first failure. A crash ends a delivery, so it outweighs faults before it. -/
def outcome (replies : List Reply) : Option Stop :=
  match replies.getLast? with
  | some ⟨some (.crash c), _, _⟩ => some (.crash c)
  | _ => replies.findSome? (·.result)

/-- A method to deliver: its name in reports, its events and whether it stops at the first
failure. -/
structure Source where
  name : Text
  events : List (Option Event)
  stop : Bool
deriving DecidableEq, Repr

/-- Delivers a method to a visitor. -/
def Source.replay {σ : Type} (src : Source) (visit : Visitor σ) (s : σ) : σ × List Reply :=
  deliver visit src.stop s src.events

/-- An element of a method body: an instruction or a label. -/
inductive CodeElement (L : Type := Label) where
  | instruction (ins : Instruction L)
  | label (label : L)
deriving DecidableEq, Repr

def CodeElement.event : CodeElement → Event
  | .instruction ins => .instruction (some ins)
  | .label target => .label (some target)

/-- A declaration with a body, in which elements may be missing. -/
structure Body where
  access : Access
  name : Text
  descriptor : Text
  params : List Text
  code : List (Option CodeElement)
deriving DecidableEq, Repr

def Body.events (b : Body) : List (Option Event) :=
  some (.method { access := b.access, name := b.name, descriptor := b.descriptor }) ::
    b.params.map (fun name => some (.parameter name .empty)) ++
    some .code :: b.code.map (·.map CodeElement.event) ++ [some .finish]

def Body.source (b : Body) (stop : Bool) : Source := ⟨b.name ++ b.descriptor, b.events, stop⟩

/-- A configuration that method bodies are tried under. -/
structure Trial where
  name : Text
  config : Config
deriving DecidableEq, Repr

def trials (debug : Bool) : List Trial :=
  [⟨"Plain", {}⟩, ⟨"TrackLocals", { trackLocals := true }⟩] ++
    if debug then [⟨"TrackLocalsDebug", { trackLocals := true, debug := true }⟩] else []

end OperandStack
