import OperandStack.Toml.Statement

/-!
# Tables of a TOML file

The statements of a file build a tree of tables. A header opens a table, and the assignments
after it go there. Nothing may be defined twice; a table that only stood in the path of another
or was written in braces may still be opened, and keeps its fields. Tables in braces that are
items of an array make up an array of tables.
-/

namespace OperandStack.Toml

/-- What a key stands for. A table is headed if a header opened it. -/
inductive Item where
  | value (line : Nat) (v : Value)
  | table (line : Nat) (headed : Bool) (fields : List (Text × Item))
  /-- An array of tables: the line of the first and the fields of the last. -/
  | elements (line : Nat) (fields : List (Text × Item))
deriving Repr

abbrev Fields := List (Text × Item)

/-- Why a statement cannot be followed. -/
inductive Conflict where
  | keyWithTable (key : Text) (line : Nat)
  | keyWithArray (key : Text)
  | keyWithKey (key : Text) (line : Nat)
  /-- The path of a header leads through a value. -/
  | pathWithKey (key : Text) (line : Nat)
  | tableWithTable (name : Text) (line : Nat)
  | tableWithArray (name : Text) (line : Nat)
  | tableWithKey (name : Text) (line : Nat)
  | elementWithTable (name : Text) (line : Nat)
  | elementWithKey (name : Text) (line : Nat)
deriving DecidableEq, Repr

def Conflict.message : Conflict → Text
  | .keyWithTable key line =>
    "key `" ++ key ++ "' is in conflict with table in line " ++ Text.ofNat line
  | .keyWithArray key =>
    "BUG: key `" ++ key ++ "' is in conflict but it's unknown type `[]*ast.Table'"
  | .keyWithKey key line =>
    "key `" ++ key ++ "' is in conflict with line " ++ Text.ofHex 1 line ++ "d"
  | .pathWithKey key line =>
    "key `" ++ key ++ "' is in conflict with line " ++ Text.ofNat line
  | .tableWithTable name line =>
    "table `" ++ name ++ "' is in conflict with table in line " ++ Text.ofNat line
  | .tableWithArray name line =>
    "table `" ++ name ++ "' is in conflict with array table in line " ++ Text.ofNat line
  | .tableWithKey name line =>
    "table `" ++ name ++ "' is in conflict with line " ++ Text.ofNat line
  | .elementWithTable name line =>
    "array table `" ++ name ++ "' is in conflict with table in line " ++ Text.ofNat line
  | .elementWithKey name line =>
    "array table `" ++ name ++ "' is in conflict with line " ++ Text.ofNat line

namespace Fields

/-- Gives a key its item, in place of the one it had. -/
def put (fs : Fields) (key : Text) (item : Item) : Fields :=
  match fs with
  | [] => [(key, item)]
  | (k, i) :: rest => if k = key then (k, item) :: rest else (k, i) :: put rest key item

/-- Adds a value. -/
def assign (key : Text) (line : Nat) (v : Value) (fs : Fields) : Except Conflict Fields :=
  match fs.lookup key with
  | none => .ok (fs.put key (.value line v))
  | some (.value first _) => .error (.keyWithKey key first)
  | some (.table first _ _) => .error (.keyWithTable key first)
  | some (.elements _ _) => .error (.keyWithArray key)

/-- Changes the fields of the table at a path. Tables that are missing on the way stand on the
given line. -/
def within (line : Nat) (change : Fields → Except Conflict Fields) (fs : Fields) :
    List Text → Except Conflict Fields
  | [] => change fs
  | key :: path =>
    match fs.lookup key with
    | none => do return fs.put key (.table line false (← within line change [] path))
    | some (.table first headed inner) => do
      return fs.put key (.table first headed (← within line change inner path))
    | some (.elements first inner) => do
      return fs.put key (.elements first (← within line change inner path))
    | some (.value first _) => .error (.pathWithKey key first)

/-- Opens a table, which keeps the fields it has if no header opened it before. -/
def openTable (name key : Text) (line : Nat) (headed : Bool) (fs : Fields) :
    Except Conflict Fields :=
  match fs.lookup key with
  | none => .ok (fs.put key (.table line headed []))
  | some (.table _ false inner) => .ok (fs.put key (.table line headed inner))
  | some (.table first true _) => .error (.tableWithTable name first)
  | some (.elements first _) => .error (.tableWithArray name first)
  | some (.value first _) => .error (.tableWithKey name first)

/-- Adds an element to an array of tables. -/
def openElement (name key : Text) (line : Nat) (fs : Fields) : Except Conflict Fields :=
  match fs.lookup key with
  | none => .ok (fs.put key (.elements line []))
  | some (.elements first _) => .ok (fs.put key (.elements first []))
  | some (.table first _ _) => .error (.elementWithTable name first)
  | some (.value first _) => .error (.elementWithKey name first)

end Fields

/-- Why a file was not read. -/
inductive ReadError where
  | malformed (line : Nat)
  | conflict (line : Nat) (c : Conflict)
  /-- An escape that stands for no character. -/
  | badEscape (line : Nat)
deriving DecidableEq, Repr

def ReadError.line : ReadError → Nat
  | .malformed line => line
  | .conflict line _ => line
  | .badEscape line => line

def ReadError.message : ReadError → Text
  | .malformed _ => "invalid TOML syntax"
  | .conflict _ c => c.message
  | .badEscape _ => "invalid syntax"

/-! ## Following statements -/

/-- The name of a key. -/
def Key.read (k : Key) : Except ReadError Text :=
  match k.name with
  | some name => .ok name
  | none => .error (.badEscape k.line)

/-- Changes the table at a path by something that stands on a line. -/
def changed (line : Nat) (change : Fields → Except Conflict Fields) (path : List Text)
    (fs : Fields) : Except ReadError Fields :=
  (fs.within line change path).mapError (.conflict line)

mutual

/-- Follows an assignment in the table at `path`. Inside an array every table in braces is an
element. Values are nested no deeper than `fuel` tells. -/
def define (inArray : Bool) (path : List Text) (k : Key) (line : Nat) (v : Value) :
    Nat → Fields → Except ReadError Fields
  | 0, fs => .ok fs
  | fuel + 1, fs => do
    let key ← k.read
    match v with
    | .inline start entries => defineInline inArray path key start entries fuel fs
    | .array items =>
      let (hasTables, fs) ← defineItems path key items fuel fs
      if hasTables then return fs else changed line (Fields.assign key line v) path fs
    | .string false stop => .error (.badEscape stop)
    | v => changed line (Fields.assign key line v) path fs

/-- Opens a table in braces and follows its assignments. -/
def defineInline (inArray : Bool) (path : List Text) (key : Text) (start : Nat)
    (entries : List (Key × Nat × Value)) : Nat → Fields → Except ReadError Fields
  | 0, fs => .ok fs
  | fuel + 1, fs => do
    let opened := if inArray then Fields.openElement key key start
      else Fields.openTable key key start false
    let fs ← changed start opened path fs
    defineAll inArray (path ++ [key]) entries fuel fs

def defineAll (inArray : Bool) (path : List Text) (entries : List (Key × Nat × Value)) :
    Nat → Fields → Except ReadError Fields
  | 0, fs => .ok fs
  | fuel + 1, fs =>
    match entries with
    | [] => .ok fs
    | (k, line, v) :: more => do
      defineAll inArray path more fuel (← define inArray path k line v fuel fs)

/-- Follows the tables among the items of an array, and tells whether there are any. -/
def defineItems (path : List Text) (key : Text) (items : List Value) :
    Nat → Fields → Except ReadError (Bool × Fields)
  | 0, fs => .ok (false, fs)
  | fuel + 1, fs =>
    match items with
    | [] => .ok (false, fs)
    | item :: more => do
      let (here, fs) ← match item with
        | .inline start entries =>
          (defineInline true path key start entries fuel fs).map (true, ·)
        | .array inner => defineItems path key inner fuel fs
        | .string false stop => .error (.badEscape stop)
        | _ => .ok (false, fs)
      let (later, fs) ← defineItems path key more fuel fs
      return (here || later, fs)

end

/-- Follows statements, of which assignments go to the table at `current`. -/
def follow (fuel : Nat) (current : List Text) (fs : Fields) :
    List Statement → Except ReadError Fields
  | [] => .ok fs
  | .header keys written line element :: rest => do
    let path ← keys.mapM Key.read
    let key := path.getLast?.getD []
    let opened := if element then Fields.openElement written key line
      else Fields.openTable written key line true
    follow fuel path (← changed line opened path.dropLast fs) rest
  | .assign k line v :: rest => do
    follow fuel current (← define false current k line v fuel fs) rest

/-- Reads the fields of a file. -/
def Fields.read (t : Text) : Except ReadError Fields :=
  match Statement.read t with
  | .error line => .error (.malformed line)
  | .ok statements => follow (4 * t.length + 4) [] [] statements

end OperandStack.Toml
