import OperandStack.Command.Run

/-!
# The program

Reads the files a command asks for, runs it, and writes what it gives.
-/

namespace OperandStack

/-- What reading a file failed with, by the number the system gives it. -/
def entryOfCode (code : UInt32) : Except PathFault FileEntry :=
  match code with
  | 20 => .error .notDirectory
  | 21 => .ok .directory
  | 22 => .error .invalid
  | 36 => .error .nameTooLong
  | _ => .error .missing

def entryOfError : IO.Error → Except PathFault FileEntry
  | .inappropriateType _ code _ => entryOfCode code
  | .invalidArgument _ code _ => entryOfCode code
  | _ => .error .missing

/-- What a path leads to. -/
def readEntry (path : Text) : IO (Except PathFault FileEntry) := do
  match String.fromUTF8? ⟨path.toArray⟩ with
  | none => return .error .missing
  | some name =>
    try
      return .ok (.file (← IO.FS.readBinFile name).data.toList)
    catch e => return entryOfError e

end OperandStack

open OperandStack in
def main (args : List String) : IO UInt32 := do
  let args := args.map Text.ofString
  let entries ← (Command.paths args).mapM fun path => return (path, ← readEntry path)
  let r := Command.run (fun path => (entries.lookup path).getD (.error .missing)) args
  let stdout ← IO.getStdout
  stdout.write ⟨r.out.toArray⟩
  match r.error with
  | none => return 0
  | some e =>
    let stderr ← IO.getStderr
    stderr.write ⟨(e.message ++ "\n" : Text).toArray⟩
    return 1
