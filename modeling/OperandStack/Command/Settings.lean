import OperandStack.Command.Flag
import OperandStack.Engine.Basic
import OperandStack.Number.Written
import OperandStack.Toml.Datetime
import OperandStack.Toml.Tree

/-!
# Settings

Settings come from a TOML file with three groups, and from flags, which outweigh the file.
`Settings.toToml` writes them in the form in which they are read.
-/

namespace OperandStack

structure Settings where
  trackLocals : Bool := false
  debug : Bool := false
  debugEvery : UInt32 := 0
  workers : Int := 0
  verbosity : Int := 3
deriving DecidableEq, Repr

/-- Why a setting was refused. -/
inductive SettingProblem where
  | undefined (key group : Text)
  /-- A value of the wrong type, with what would be right if that can be told. -/
  | mismatch (found target : Text) (wanted : Option Text)
  /-- A number that is not written as it should be for its type. -/
  | unsigned (text : Text)
  | range (text target : Text)
  | floatRange (text : Text)
  | datetime (text : Text) (part : Toml.Datetime.Part)
deriving DecidableEq, Repr

namespace SettingProblem

def message : SettingProblem → Text
  | .undefined key group => "field '" ++ key ++ "' is not defined in " ++ group
  | .mismatch found target wanted =>
    "cannot unmarshal TOML " ++ found ++ " into " ++ target ++
      (match wanted with
        | some w => " (need " ++ w ++ ")"
        | none => [])
  | .unsigned t =>
    "strconv.ParseUint: parsing " ++ Text.quote t ++ ": " ++ Numeral.Fault.malformed.message
  | .range t target => "value " ++ t ++ " is out of range for " ++ target
  | .floatRange t =>
    "strconv.ParseFloat: parsing " ++ Text.quote t ++ ": " ++ Numeral.Fault.outOfRange.message
  | .datetime t part => "parsing time " ++ Text.quote t ++ ": " ++ part.name ++ " out of range"

end SettingProblem

/-- What is wrong with a settings file, and where. -/
inductive SettingsError where
  | unread (e : Toml.ReadError)
  /-- A problem of the file as a whole or of a setting that is named. -/
  | setting (line : Nat) (name : Option Text) (why : SettingProblem)
deriving DecidableEq, Repr

namespace SettingsError

def line : SettingsError → Nat
  | .unread e => e.line
  | .setting line _ _ => line

def detail : SettingsError → Text
  | .unread e => e.message
  | .setting _ (some name) why => "(" ++ name ++ ") " ++ why.message
  | .setting _ none why => why.message

def message (e : SettingsError) : Text := "line " ++ Text.ofNat e.line ++ ": " ++ e.detail

end SettingsError

namespace Settings

/-- How a setting takes its value. -/
inductive Setter where
  | switch (set : Bool → Settings → Settings)
  | number (set : Int → Settings → Settings)
  | count (set : UInt32 → Settings → Settings)

/-- A group of settings. -/
structure Group where
  key : Text
  type : Text
  settings : List (Text × Setter)

def rootType : Text := "main.stackdumpConfig"

def groups : List Group :=
  [⟨"Engine", "main.engineConfig",
      [("TrackLocals", .switch fun b s => { s with trackLocals := b }),
        ("Debug", .switch fun b s => { s with debug := b }),
        ("DebugEvery", .count fun n s => { s with debugEvery := n })]⟩,
    ⟨"Analysis", "main.analysisConfig", [("Workers", .number fun n s => { s with workers := n })]⟩,
    ⟨"Log", "main.logConfig", [("Verbosity", .number fun n s => { s with verbosity := n })]⟩]

namespace Setter

def typeName : Setter → Text
  | .switch _ => "bool"
  | .number _ => "int"
  | .count _ => "uint32"

/-- A value of the wrong type. Floats and dates have to be in range all the same. -/
def mismatch (target : Text) : Toml.Value → SettingProblem
  | .integer _ => .mismatch "integer" target none
  | .float t =>
    if (Format.double.read t).toOption.isSome then .mismatch "float" target none
    else .floatRange t
  | .string _ _ => .mismatch "string" target none
  | .boolean _ => .mismatch "boolean" target none
  | .datetime t =>
    match Toml.Datetime.fault? t with
    | none => .mismatch "datetime" target none
    | some part => .datetime t part
  | .array _ => .mismatch "array" target (some "slice")
  | .inline _ _ => .mismatch "table" target (some "struct or map")

/-- What a value does to the settings. -/
def read (setter : Setter) (v : Toml.Value) : Except SettingProblem (Settings → Settings) :=
  match setter, v with
  | .switch set, .boolean b => .ok (set b)
  | .number set, .integer t =>
    match Numeral.readInt 64 t with
    | .ok n => .ok (set n)
    | .error _ => .error (.range t setter.typeName)
  | .count set, .integer t =>
    match Numeral.readUnsigned 64 t with
    | .ok n => if n < Nat.pow 2 32 then .ok (set n.toUInt32) else .error (.range t setter.typeName)
    | .error .outOfRange => .error (.range t setter.typeName)
    | .error .malformed => .error (.unsigned t)
  | _, v => .error (mismatch setter.typeName v)

end Setter

/-- Reads one setting of a group. -/
def readSetting (group : Group) (key : Text) (item : Toml.Item) :
    Except SettingsError (Settings → Settings) :=
  let name := group.type ++ "." ++ key
  match group.settings.lookup key, item with
  | some setter, .value line v =>
    (setter.read v).mapError fun p => .setting line (some name) p
  | some setter, .table line _ _ =>
    .error (.setting line none (.mismatch "table" setter.typeName (some "struct or map")))
  | some setter, .elements line _ =>
    .error (.setting line (some name) (.mismatch "array table" setter.typeName (some "slice")))
  | none, .value line _ => .error (.setting line none (.undefined key group.type))
  | none, .table line _ _ => .error (.setting line none (.undefined key group.type))
  | none, .elements line _ => .error (.setting line none (.undefined key group.type))

/-- Reads the settings of a group. -/
def readGroup (group : Group) (s : Settings) : Toml.Fields → Except SettingsError Settings
  | [] => .ok s
  | (key, item) :: rest => do
    let change ← readSetting group key item
    readGroup group (change s) rest

/-- Reads one group of a file. -/
def readField (s : Settings) (key : Text) (item : Toml.Item) : Except SettingsError Settings :=
  let name := rootType ++ "." ++ key
  match groups.find? (·.key = key), item with
  | some group, .table _ _ fields => readGroup group s fields
  | some group, .value line v => .error (.setting line (some name) (Setter.mismatch group.type v))
  | some group, .elements line _ =>
    .error (.setting line (some name) (.mismatch "array table" group.type (some "slice")))
  | none, .value line _ => .error (.setting line none (.undefined key rootType))
  | none, .table line _ _ => .error (.setting line none (.undefined key rootType))
  | none, .elements line _ => .error (.setting line none (.undefined key rootType))

def readFields (s : Settings) : Toml.Fields → Except SettingsError Settings
  | [] => .ok s
  | (key, item) :: rest => do readFields (← readField s key item) rest

/-- Applies a settings file. -/
def read (s : Settings) (t : Text) : Except SettingsError Settings :=
  match Toml.Fields.read t with
  | .error e => .error (.unread e)
  | .ok fields => readFields s fields

/-- Applies the flags that were given. -/
def override (s : Settings) (g : Flag.Given) : Settings :=
  { s with
    trackLocals := (g.switch? "track-locals").getD s.trackLocals
    debug := (g.switch? "debug").getD s.debug
    workers := (g.number? "workers").getD s.workers
    verbosity := (g.number? "verbosity").getD s.verbosity }

/-- The configuration of engines. -/
def engine (s : Settings) : Config :=
  { trackLocals := s.trackLocals, debug := s.debug, debugEvery := s.debugEvery }

def ofBool (b : Bool) : Text := if b then "true" else "false"

/-- A line that assigns a value. -/
def assignment (key value : Text) : Text := key ++ " = " ++ value ++ "\n"

/-- The settings as a TOML file. A zero `DebugEvery` is left out. -/
def toToml (s : Settings) : Text :=
  "[Engine]\n" ++ assignment "TrackLocals" (ofBool s.trackLocals) ++
    assignment "Debug" (ofBool s.debug) ++
    (if s.debugEvery = 0 then [] else assignment "DebugEvery" (Text.ofNat s.debugEvery.toNat)) ++
    "\n[Analysis]\n" ++ assignment "Workers" (Text.ofInt s.workers) ++
    "\n[Log]\n" ++ assignment "Verbosity" (Text.ofInt s.verbosity)

end Settings

end OperandStack
