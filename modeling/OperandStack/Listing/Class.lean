import OperandStack.Listing.Code

/-!
# Classes in listings

A listing names a class and its methods. `Document` holds what is written; `Document.check`
reads the code and gives the class, or every issue found.
-/

namespace OperandStack

/-- A method as a listing writes it. Without a code list it has no body; an empty one is a
body. -/
structure MethodEntry where
  name : Text := []
  access : List Text := []
  descriptor : Text := []
  signature : Text := []
  exceptions : List Text := []
  parameters : List Text := []
  code : Option (List Text) := none
deriving DecidableEq, Repr

structure Document where
  owner : Text := []
  methods : List MethodEntry := []
deriving DecidableEq, Repr

/-- A method of a listing that has been read. -/
structure ListedMethod where
  owner : Text
  name : Text
  descriptor : Text
  access : Access := .empty
  signature : Text := []
  exceptions : List Text := []
  parameters : List Text := []
  code : Option (List CodeLine) := none
deriving DecidableEq, Repr

namespace ListedMethod

def toText (m : ListedMethod) : Text :=
  if m.owner.isEmpty then m.name ++ m.descriptor
  else m.owner ++ "." ++ m.name ++ m.descriptor

def hasCode (m : ListedMethod) : Bool := m.code.isSome

def lines (m : ListedMethod) : List CodeLine := m.code.getD []

/-- The text that the element with the given number was written as; empty if there is none. -/
def line (m : ListedMethod) (i : Int) : Text :=
  if i < 0 then [] else (m.lines[i.toNat]?.map (·.text)).getD []

/-- The number of instructions in the body. -/
def instructionCount (m : ListedMethod) : Nat :=
  m.lines.countP fun l => match l.element with
    | .instruction _ => true
    | .label _ => false

/-- The events of the method, in order. -/
def events (m : ListedMethod) : List Event :=
  .method { access := m.access, name := m.name, descriptor := m.descriptor,
            signature := m.signature, exceptions := m.exceptions } ::
    m.parameters.map (Event.parameter · .empty) ++
    (match m.code with
      | some lines => .code :: lines.map fun l => l.element.event
      | none => []) ++
    [.finish]

/-- Delivered, a method stops at the first event that fails. -/
def source (m : ListedMethod) : Source := ⟨m.toText, m.events.map some, true⟩

end ListedMethod

structure ListedClass where
  name : Text
  methods : List ListedMethod
deriving DecidableEq, Repr

/-- The first method with the given name. -/
def ListedClass.method? (c : ListedClass) (name : Text) : Option ListedMethod :=
  c.methods.find? (·.name = name)

/-- What is wrong with a listing. -/
inductive Issue where
  | noName (index : Nat)
  | noDescriptor (name : Text)
  | access (name word : Text)
  | line (method : Text) (bad : BadLine)
  | label (method name : Text)
deriving DecidableEq, Repr

def Issue.message : Issue → Text
  | .noName index => "methods[" ++ Text.ofNat index ++ "]: missing name"
  | .noDescriptor name => name ++ ": missing descriptor"
  | .access name word => name ++ ": unknown access modifier " ++ Text.quote word
  | .line method bad =>
    method ++ ": code[" ++ Text.ofNat bad.index ++ "] " ++ Text.quote bad.text ++ ": " ++
      bad.problem.message
  | .label method name => method ++ ": label " ++ name ++ " is never defined"

namespace MethodEntry

/-- The union of the known modifiers. -/
def flags (words : List Text) : Access :=
  (words.filterMap Access.ofKeyword?).foldl Access.union .empty

/-- Reads a method with a name and a descriptor. -/
def read (e : MethodEntry) (owner : Text) : ListedMethod :=
  { owner, name := e.name, descriptor := e.descriptor, access := flags e.access,
    signature := e.signature, exceptions := e.exceptions, parameters := e.parameters,
    code := e.code.map fun lines => (CodeReading.read lines).lines }

/-- The issues of the code of a method. -/
def codeIssues (method : Text) (lines : List Text) : List Issue :=
  let r := CodeReading.read lines
  r.bad.map (Issue.line method) ++ r.labels.undefined.map (Issue.label method)

/-- The issues of the method with the given number. -/
def issues (e : MethodEntry) (owner : Text) (index : Nat) : List Issue :=
  if e.name.isEmpty then [.noName index]
  else if e.descriptor.isEmpty then [.noDescriptor e.name]
  else
    (e.access.filter fun word => (Access.ofKeyword? word).isNone).map (Issue.access e.name) ++
      codeIssues (e.read owner).toText (e.code.getD [])

end MethodEntry

namespace Document

def issues (d : Document) : List Issue :=
  d.methods.zipIdx.flatMap fun (e, index) => e.issues d.owner index

/-- The class a listing describes, if nothing is wrong with it. -/
def check (d : Document) : Except (List Issue) ListedClass :=
  if d.issues.isEmpty then .ok ⟨d.owner, d.methods.map (·.read d.owner)⟩ else .error d.issues

end Document

end OperandStack
