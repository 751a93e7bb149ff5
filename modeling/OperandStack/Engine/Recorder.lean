import OperandStack.Engine.Basic

/-!
# Recorders

A recorder is a visitor that keeps the text of every event it is given and refuses those
whose numbers it was told to refuse.
-/

namespace OperandStack

/-- The text of an event as a recorder keeps it. -/
def Event.toText : Event → Text
  | .method m =>
    "method " ++ Text.ofNat m.access.bits.toNat ++ " " ++ m.name ++ " " ++ m.descriptor ++ " " ++
      Text.quote m.signature ++ " " ++ Text.bracketed " " (m.exceptions.map Text.quote)
  | .parameter name access => "param " ++ name ++ " " ++ Text.ofNat access.bits.toNat
  | .code => "code"
  | .instruction ins => "insn " ++ instructionText ins
  | .label target => "label " ++ labelText target
  | .finish => "end"

/-- Events are numbered from zero in the order of their arrival. -/
structure Recorder where
  refusing : List Nat := []
  seen : List Event := []
deriving DecidableEq, Repr

/-- Keeps an event, and refuses it if its number says so. -/
def Recorder.visit (r : Recorder) (ev : Event) : Recorder × Reply :=
  let n := r.seen.length
  ({ r with seen := r.seen ++ [ev] },
    if r.refusing.contains n then .refuse (.refused n) else .accepted)

end OperandStack
