import OperandStack.Listing.Class
import OperandStack.Listing.Mismatch

/-!
# Listings written in YAML

A listing is a YAML document. `Document.ofNode` reads the document off its nodes and collects
every place where a node does not fit. Null stands for a missing value, and null items of a
list do not count. Under the plain key `<<` a mapping takes over the fields of another one,
or of several, which it does not have itself.
-/

namespace OperandStack

/-- A value read off a node, absent for null, and the places that do not fit. -/
structure Decoded (α : Type) where
  value : Option α := none
  mismatches : List Mismatch := []
deriving DecidableEq, Repr

namespace Decoded

open Yaml

variable {α β : Type}

def map (f : α → β) (d : Decoded α) : Decoded β := ⟨d.value.map f, d.mismatches⟩

def refuse (m : Mismatch) : Decoded α := ⟨none, [m]⟩

/-- What becomes of a mapping where none is wanted. -/
def refuseMapping (line : Nat) (entries : List (Node × Node)) (target : Target) : Decoded α :=
  match Mismatch.repeatedKeys (entries.map (·.1)) with
  | [] => refuse (.mapping line target)
  | ms => ⟨none, ms⟩

/-- What becomes of a scalar where a collection is wanted: null is no value, anything else
does not fit. -/
def refuseScalar (line : Nat) (style : ScalarStyle) (t : Text) (target : Target) : Decoded α :=
  match ScalarKind.ofScalar style t with
  | .null => {}
  | kind => refuse (.scalar line kind t target)

/-- A string is any scalar but null, taken as it is written. -/
def string : Node → Decoded Text
  | .scalar _ style t => if ScalarKind.ofScalar style t = .null then {} else ⟨some t, []⟩
  | .sequence line _ => refuse (.sequence line .string)
  | .mapping line entries => refuseMapping line entries .string

/-- Why reading cannot go on. -/
inductive Obstacle where
  /-- What is to be merged is no mapping, or a key is no scalar. -/
  | malformed
  /-- A key that is no scalar is compared with others. -/
  | incomparableKey
deriving DecidableEq, Repr

/-- The items of a list that have a value. -/
def list (target : Target) (item : Node → Except Obstacle (Decoded α)) :
    Node → Except Obstacle (Decoded (List α))
  | .scalar line style t => .ok (refuseScalar line style t target)
  | .sequence _ items => do
    let ds ← items.mapM item
    return ⟨some (ds.filterMap (·.value)), ds.flatMap (·.mismatches)⟩
  | .mapping line entries => .ok (refuseMapping line entries target)

def strings : Node → Except Obstacle (Decoded (List Text)) :=
  list .strings fun n => .ok (string n)

/-! ## Merging -/

/-- The key that merges. In quotes it is a key like others. -/
def isMerge : Node → Bool
  | .scalar _ style t => ScalarKind.ofScalar style t = .merge
  | _ => false

/-- The values that are merged into a mapping: of several merge keys the last counts. -/
def mergedValue? (entries : List (Node × Node)) : Option Node :=
  (entries.filter fun e => isMerge e.1).getLast?.map (·.2)

mutual

/-- What stands in the way of reading a node without knowing its type. `merging` tells that
keys are compared with those of another mapping. -/
def obstacle? (merging : Bool) : Node → Option Obstacle
  | .scalar _ _ _ => none
  | .sequence _ items => itemsObstacle? merging items
  | .mapping _ entries =>
    if (Mismatch.repeatedKeys (entries.map (·.1))).isEmpty then
      (entriesObstacle? merging entries).or (mergeObstacle? entries)
    else none

def itemsObstacle? (merging : Bool) : List Node → Option Obstacle
  | [] => none
  | item :: items => (obstacle? merging item).or (itemsObstacle? merging items)

/-- Reads the keys and values of a mapping; merge keys are passed over. -/
def entriesObstacle? (merging : Bool) : List (Node × Node) → Option Obstacle
  | [] => none
  | (key, value) :: entries =>
    let here : Option Obstacle :=
      if isMerge key then none
      else (obstacle? false key).or <|
        match key with
        | .scalar _ _ _ => obstacle? false value
        | .sequence _ _ => some (if merging then .incomparableKey else .malformed)
        | .mapping _ inner =>
          if (Mismatch.repeatedKeys (inner.map (·.1))).isEmpty then
            some (if merging then .incomparableKey else .malformed)
          else none
    here.or (entriesObstacle? merging entries)

/-- Reads what the last merge key merges. -/
def mergeObstacle? : List (Node × Node) → Option Obstacle
  | [] => none
  | (key, value) :: entries =>
    if isMerge key && (mergedValue? entries).isNone then
      match value with
      | .scalar _ _ _ => some .malformed
      | .mapping line inner => obstacle? true (.mapping line inner)
      | .sequence _ items => mappingsObstacle? items
    else mergeObstacle? entries

/-- Reads mappings that are merged one after the other. -/
def mappingsObstacle? : List Node → Option Obstacle
  | [] => none
  | .mapping line inner :: items =>
    (obstacle? true (.mapping line inner)).or (mappingsObstacle? items)
  | _ :: _ => some .malformed

end

/-- The name that a key takes in a mapping, if it is a string. -/
def takenName? : Node → Option Text
  | .scalar _ style t =>
    match ScalarKind.ofScalar style t with
    | .string => some t
    | .merge => some t
    | _ => none
  | _ => none

/-- What is found when the keys of a mapping are told apart. A collection for a key cannot be,
unless its own keys are repeated. -/
def compareKey (key : Node) : Except Obstacle (List Mismatch) :=
  match key with
  | .scalar _ _ _ => .ok []
  | .sequence _ _ => .error ((obstacle? true key).getD .incomparableKey)
  | .mapping _ entries =>
    match Mismatch.repeatedKeys (entries.map (·.1)) with
    | [] => .error ((obstacle? true key).getD .incomparableKey)
    | ms => .ok ms

/-! ## Records -/

/-- The fields of a record: each changes it by the value of its node. -/
abbrev Fields (α : Type) := List (Text × (Node → Except Obstacle (Decoded (α → α))))

/-- A record that is being read. While mappings are merged into it, `taken` holds the names
that count no more. -/
structure Draft (α : Type) where
  record : α
  taken : Option (List Text) := none
  mismatches : List Mismatch := []

namespace Draft

def note (d : Draft α) (ms : List Mismatch) : Draft α :=
  { d with mismatches := d.mismatches ++ ms }

/-- Reads one field. -/
def field (d : Draft α) (target : Target) (fields : Fields α) (line : Nat) (name : Text)
    (value : Node) : Except Obstacle (Draft α) :=
  match fields.lookup name with
  | none => .ok (d.note [.unknownField line name target])
  | some read => do
    let change ← read value
    return { d.note change.mismatches with record := (change.value.map (· d.record)).getD d.record }

/-- Reads one entry of a mapping. -/
def entry (d : Draft α) (target : Target) (fields : Fields α) (e : Node × Node) :
    Except Obstacle (Draft α) :=
  if isMerge e.1 then .ok d
  else
    let key := string e.1
    match key.value, d.taken with
    | none, _ => .ok (d.note key.mismatches)
    | some name, none => d.field target fields e.1.line name e.2
    | some name, some names =>
      if names.contains name then .ok d
      else { d with taken := some (name :: names) }.field target fields e.1.line name e.2

/-- Gets ready to merge into a mapping: the names of its own keys are taken, unless it is
merged itself. -/
def beginMerge (d : Draft α) (keys : List Node) : Except Obstacle (Draft α) :=
  match d.taken with
  | some _ => .ok d
  | none => do
    let ms ← keys.mapM compareKey
    return { d with taken := some (keys.filterMap takenName?) }.note ms.flatten

end Draft

mutual

/-- Reads the entries of a mapping and then those that are merged into it. A mapping with
repeated keys is not read further. -/
def readMapping (target : Target) (fields : Fields α) (d : Draft α) :
    Node → Except Obstacle (Draft α)
  | .mapping _ entries => do
    let keys := entries.map (·.1)
    match Mismatch.repeatedKeys keys with
    | [] =>
      let d ← entries.foldlM (fun d e => d.entry target fields e) d
      if (mergedValue? entries).isNone then return d
      let merged ← readMerged target fields (← d.beginMerge keys) entries
      return if d.taken.isNone then { merged with taken := none } else merged
    | ms => return d.note ms
  | _ => .error .malformed

/-- Reads what the last merge key merges. -/
def readMerged (target : Target) (fields : Fields α) (d : Draft α) :
    List (Node × Node) → Except Obstacle (Draft α)
  | [] => .ok d
  | (key, value) :: entries =>
    if isMerge key && (mergedValue? entries).isNone then
      match value with
      | .sequence _ items => readMappings target fields d items
      | value => readMapping target fields d value
    else readMerged target fields d entries

/-- Reads mappings one after the other. -/
def readMappings (target : Target) (fields : Fields α) (d : Draft α) :
    List Node → Except Obstacle (Draft α)
  | [] => .ok d
  | item :: items => do
    readMappings target fields (← readMapping target fields d item) items

end

/-- Reads a record off a mapping. -/
def record (target : Target) (fields : Fields α) (start : α) :
    Node → Except Obstacle (Decoded α)
  | .scalar line style t => .ok (refuseScalar line style t target)
  | .sequence line _ => .ok (refuse (.sequence line target))
  | .mapping line entries =>
    match Mismatch.repeatedKeys (entries.map (·.1)) with
    | [] => do
      let d ← readMapping target fields { record := start } (.mapping line entries)
      return ⟨some d.record, d.mismatches⟩
    | ms => .ok ⟨none, ms⟩

/-- A field that holds a string. -/
def stringField (set : Text → α → α) (n : Node) : Except Obstacle (Decoded (α → α)) :=
  .ok ((string n).map set)

/-- A field that holds a list of strings. -/
def stringsField (set : List Text → α → α) (n : Node) : Except Obstacle (Decoded (α → α)) :=
  (strings n).map (·.map set)

def methodFields : Fields MethodEntry :=
  [("name", stringField fun t m => { m with name := t }),
    ("access", stringsField fun ts m => { m with access := ts }),
    ("descriptor", stringField fun t m => { m with descriptor := t }),
    ("signature", stringField fun t m => { m with signature := t }),
    ("exceptions", stringsField fun ts m => { m with exceptions := ts }),
    ("parameters", stringsField fun ts m => { m with parameters := ts }),
    ("code", stringsField fun ts m => { m with code := some ts })]

def method : Node → Except Obstacle (Decoded MethodEntry) := record .method methodFields {}

def fileFields : Fields Document :=
  [("class", stringField fun t d => { d with owner := t }),
    ("methods", fun n => (list .methods method n).map (·.map fun ms d => { d with methods := ms }))]

def file : Node → Except Obstacle (Decoded Document) := record .file fileFields {}

end Decoded

/-- Why a listing was not read. -/
inductive ListingError where
  /-- The text is no YAML, or merges what is no mapping. -/
  | broken
  /-- A mapping that others are merged into has a collection for a key. Reading does not come
  to an end. -/
  | incomparableKey
  /-- There is no document. -/
  | empty
  | mismatches (ms : List Mismatch)
  | issues (is : List Issue)
deriving DecidableEq, Repr

/-- The message of a listing with issues: one stands alone, more are listed. -/
def Issue.report (is : List Issue) : Text :=
  match is with
  | [issue] => "listing: " ++ issue.message
  | is => "listing validation failed:" ++ Text.listed "\n- " (is.map Issue.message)

/-- What an error says of itself. That a text is no YAML is all there is to say. -/
def ListingError.message : ListingError → Text
  | .broken => "listing: parse: yaml"
  | .incomparableKey => []
  | .empty => "listing: empty document"
  | .mismatches ms =>
    "listing: parse: yaml: unmarshal errors:" ++ Text.listed "\n  " (ms.map Mismatch.message)
  | .issues is => Issue.report is

/-- Reads the document off its root. -/
def Document.ofNode (root : Yaml.Node) : Except ListingError Document :=
  match Decoded.file root with
  | .ok d =>
    if d.mismatches.isEmpty then .ok (d.value.getD {}) else .error (.mismatches d.mismatches)
  | .error .malformed => .error .broken
  | .error .incomparableKey => .error .incomparableKey

/-- Reads a document from a text. -/
def Document.read (t : Text) : Except ListingError Document :=
  match Yaml.Node.read t with
  | none => .error .broken
  | some none => .error .empty
  | some (some root) => Document.ofNode root

/-- The class a document describes. -/
def Document.class (d : Document) : Except ListingError ListedClass :=
  d.check.mapError .issues

/-- Reads a class from a text. -/
def ListedClass.read (t : Text) : Except ListingError ListedClass := do
  (← Document.read t).class

end OperandStack
