import OperandStack.Listing.Line

/-!
# Method bodies

The lines of a body share their labels. A label is made when its name is met first, and every later
mention of the name is that label. A label may be defined once, and one that is mentioned has to be
defined somewhere in the same body.
-/

namespace OperandStack

/-- Labels met so far. -/
structure LabelTable where
  /-- The names of the labels that have been made. The number of a label is the place of its
  name. -/
  labels : List Text := []
  defined : List Text := []
deriving DecidableEq, Repr

namespace LabelTable

/-- The label of a name, which is made if there is none. -/
def label (name : Text) : StateM LabelTable Label := fun t =>
  if t.labels.contains name then (⟨t.labels.idxOf name, name⟩, t)
  else (⟨t.labels.length, name⟩, { t with labels := t.labels ++ [name] })

/-- Has the labels of some names made. -/
def mention (t : LabelTable) (names : List Text) : LabelTable :=
  names.foldl (fun t name => ((label name).run t).2) t

/-- Takes the labels of a line into the table. A second definition of a label is rejected. -/
def enter (t : LabelTable) (r : Line.Reading) : LabelTable × Except LineProblem CodeElement :=
  match r.result with
  | .ok (.label name) =>
    if t.defined.contains name then (t, .error (.repeatedLabel name))
    else
      let (made, t) := (label name).run { t with defined := t.defined ++ [name] }
      (t, .ok (.label made))
  | .ok (.instruction ins) =>
    let (ins, t) := (ins.traverse label).run t
    (t, .ok (.instruction ins))
  | .error p => (t.mention r.met, .error p)

/-- The names of labels that were mentioned and not defined, in bytewise order. -/
def undefined (t : LabelTable) : List Text :=
  (t.labels.filter fun name => !t.defined.contains name).mergeSort Text.le

end LabelTable

/-- An element of a body with the line it was written as. -/
structure CodeLine where
  element : CodeElement
  text : Text
deriving DecidableEq, Repr

/-- A line that was rejected, with its number. -/
structure BadLine where
  index : Nat
  text : Text
  problem : LineProblem
deriving DecidableEq, Repr

/-- The lines of a body that were accepted and those that were not. -/
structure CodeReading where
  lines : List CodeLine := []
  bad : List BadLine := []
  labels : LabelTable := {}
deriving DecidableEq, Repr

namespace CodeReading

/-- Reads lines from the given number on. -/
def readFrom (labels : LabelTable) (index : Nat) : List Text → CodeReading
  | [] => { labels }
  | line :: rest =>
    let (labels, result) := labels.enter (Line.read line)
    let r := readFrom labels (index + 1) rest
    match result with
    | .ok element => { r with lines := ⟨element, Text.trim line⟩ :: r.lines }
    | .error problem => { r with bad := ⟨index, line, problem⟩ :: r.bad }

def read (lines : List Text) : CodeReading := readFrom {} 0 lines

end CodeReading

end OperandStack
