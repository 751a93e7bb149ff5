import OperandStack.Listing.Class
import OperandStack.Table

/-!
# Traces

A trace shows what an engine does with a method: a row for every instruction it sees, with
the stack after it or the fault, and a last row for the value returned.
-/

namespace OperandStack

inductive TraceRow where
  | applied (index : Nat) (ins : Option Instruction) (stack : Operands)
  | failed (index : Nat) (ins : Option Instruction) (f : Fault)
  | returned (v : Value)
deriving DecidableEq, Repr

namespace TraceRow

def cells : TraceRow → List Text
  | .applied index ins s =>
    [Text.ofNat index, instructionText ins, Text.ofNat s.length, s.toText]
  | .failed index ins f => [Text.ofNat index, instructionText ins, "!", f.message]
  | .returned v => ["", "returns", "", v.toText]

/-- The row of an observer call, if it has one. -/
def ofCall? : HookCall → Option TraceRow
  | .method _ => none
  | .opcode index ins s => some (.applied index ins s)
  | .fault index ins _ f => some (.failed index ins f)
  | .codeEnd _ _ v => v.map .returned

end TraceRow

structure Trace where
  method : Text
  rows : List TraceRow
  /-- What stopped the method. -/
  result : Option Stop
deriving DecidableEq, Repr

namespace Trace

/-- Traces a method under a configuration. -/
def run (config : Config) (m : ListedMethod) : Trace :=
  let hooks : Hooks := { opcode := true, fault := true, codeEnd := true }
  let (_, replies) := m.source.replay Engine.visit (Engine.new { config with hooks })
  let calls := replies.flatMap fun r => r.hooks.map (·.2)
  ⟨m.toText, calls.filterMap TraceRow.ofCall?, outcome replies⟩

def header : List Text := ["#", "INSTRUCTION", "DEPTH", "STACK"]

def table (t : Trace) : Table :=
  { header, rows := t.rows.map TraceRow.cells, caption := some t.method }

end Trace

end OperandStack
