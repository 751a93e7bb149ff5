import OperandStack.Descriptor.Cache
import OperandStack.Engine.Visit

/-!
# Looking descriptors up

A declaration, a call and a call site each ask for one parsed descriptor. `Engine.consults?` tells
what an event asks for and `Engine.resume` visits the event with the answer. An engine that is
visited with a cache beside it has its answers from there.
-/

namespace OperandStack

/-- The descriptor that an instruction of the right form asks for. -/
def Instruction.lookedUp? : Instruction → Option Text
  | .method op _ _ desc _ => if op.operation?.any (·.form = .method) then some desc else none
  | .invokeDynamic _ desc _ => some desc
  | _ => none

namespace Engine

/-- The descriptor that an event asks for, if it gets that far. -/
def consults? (e : Engine) : Event → Option Text
  | .method m => some m.descriptor
  | .instruction (some ins) =>
    if e.phase = .inCode && e.sticky.isNone then ins.lookedUp? else none
  | _ => none

/-- Visits an event whose descriptor has been looked up. -/
def resume (e : Engine) (ev : Event) (looked : Except DescriptorError MethodDescriptor) :
    Engine × Reply :=
  match ev with
  | .method m => e.declare m looked
  | .instruction (some (.method op owner name desc interface)) =>
    told e.count (some (.method op owner name desc interface))
      ((Work.invoke op owner name looked).on op e.count e.counted)
  | .instruction (some (.invokeDynamic name desc bootstrap)) =>
    told e.count (some (.invokeDynamic name desc bootstrap))
      ((Work.invokeSite name looked).on .invokedynamic e.count e.counted)
  | _ => e.visit ev

/-- An engine with a descriptor cache beside it. -/
def visitCached {σ : Type} (store : DescriptorCache.Store σ) :
    Visitor (Engine × DescriptorCache σ) := fun (e, cache) ev =>
  match e.consults? ev with
  | none =>
    let (e, reply) := e.visit ev
    ((e, cache), reply)
  | some desc =>
    let (cache, answer) := cache.lookup store desc
    let (e, reply) := e.resume ev answer.parsed
    ((e, cache), reply)

end Engine

end OperandStack
