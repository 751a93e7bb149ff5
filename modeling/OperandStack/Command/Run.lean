import OperandStack.Analysis
import OperandStack.Command.Directory
import OperandStack.Command.Settings
import OperandStack.Command.Trace
import OperandStack.Listing.Decode

/-!
# Commands

`trace` shows the stack after every instruction of the methods of a listing, `check` sums up
all methods of some listings, and `dumpconfig` shows the settings. `Command.run` is the whole
program on given files. Asked for help it shows a page, which is not part of the outcome.
-/

namespace OperandStack

/-- Why a command failed. -/
inductive CommandError where
  | usage (e : FlagError)
  | noHelp (topic : Text)
  | noFile (path : Text) (why : PathFault)
  /-- A directory was named for the settings, or for a listing. -/
  | settingsDirectory (path : Text)
  | listingDirectory (path : Text)
  | listing (path : Text) (e : ListingError)
  | settings (path : Text) (e : SettingsError)
  | traceCount
  | checkCount
  | noMethod (name owner : Text)
  | failures (failed total : Nat)
deriving DecidableEq, Repr

namespace CommandError

def message : CommandError → Text
  | .usage e => e.message
  | .noHelp topic => "No help topic for '" ++ topic ++ "'"
  | .noFile path why => "open " ++ path ++ ": " ++ why.message
  | .settingsDirectory path => "read " ++ path ++ ": is a directory"
  | .listingDirectory path =>
    path ++ ": listing: parse: yaml: input error: read " ++ path ++ ": is a directory"
  | .listing path e => path ++ ": " ++ e.message
  | .settings path e => path ++ ", " ++ e.message
  | .traceCount => "trace needs exactly one listing"
  | .checkCount => "check needs at least one listing"
  | .noMethod name owner => "no method " ++ Text.quote name ++ " with code in " ++ owner
  | .failures failed total =>
    Text.ofNat failed ++ " of " ++ Text.ofNat total ++ " methods failed"

end CommandError

/-- What a command wrote, and why it failed if it did. -/
structure Outcome where
  out : Text := []
  error : Option CommandError := none
deriving DecidableEq, Repr

inductive Command where
  | trace
  | check
  | dumpConfig
deriving DecidableEq, Repr

namespace Command

def ofName? (name : Text) : Option Command :=
  ([("trace", .trace), ("check", .check), ("dumpconfig", .dumpConfig)] :
    List (Text × Command)).lookup name

def helpFlags : List Flag := [⟨"help", .switch⟩, ⟨"h", .switch⟩]

def commonFlags : List Flag :=
  [⟨"config", .text⟩, ⟨"verbosity", .number⟩, ⟨"track-locals", .switch⟩, ⟨"workers", .number⟩,
    ⟨"debug", .switch⟩]

def flags : Command → List Flag
  | .trace => ⟨"method", .text⟩ :: commonFlags ++ helpFlags
  | _ => commonFlags ++ helpFlags

/-- The settings of a command: the file, if one is named, and then the flags. -/
def settings (files : Files) (g : Flag.Given) : Except CommandError Settings :=
  let path := g.text "config"
  if path.isEmpty then .ok (Settings.override {} g)
  else match files path with
    | .error why => .error (.noFile path why)
    | .ok .directory => .error (.settingsDirectory path)
    | .ok (.file t) =>
      match Settings.read {} t with
      | .ok s => .ok (s.override g)
      | .error e => .error (.settings path e)

def readListing (files : Files) (path : Text) : Except CommandError ListedClass :=
  match files path with
  | .error why => .error (.noFile path why)
  | .ok .directory => .error (.listingDirectory path)
  | .ok (.file t) => (ListedClass.read t).mapError (.listing path)

/-- The methods with code that are to be traced: all, or those of one name. -/
def traced (only : Text) (c : ListedClass) : List ListedMethod :=
  c.methods.filter fun m => m.hasCode && (only.isEmpty || m.name = only)

def runTrace (files : Files) (g : Flag.Given) : Outcome :=
  match g.operands with
  | [path] =>
    match (do return (← settings files g, ← readListing files path)) with
    | .error e => { error := some e }
    | .ok (s, c) =>
      let only := g.text "method"
      match traced only c with
      | [] => if only.isEmpty then {} else { error := some (.noMethod only c.name) }
      | ms => { out := ms.flatMap fun m => (Trace.run s.engine m).table.render }
  | _ => { error := some .traceCount }

def checkHeader : List Text :=
  ["METHOD", "INSNS", "MAX DEPTH", "FINAL DEPTH", "RETURNS", "STATUS"]

def checkRow (r : Finding) : List Text :=
  [r.method, Text.ofNat r.instructions, Text.ofNat r.maxDepth, Text.ofNat r.finalDepth,
    (r.returned.map Value.toText).getD "-", if r.failed then "FAIL" else "ok"]

/-- A summary of all methods. -/
def summary (b : Batch) : Outcome :=
  let table : Table := { header := checkHeader, rows := b.findings.map checkRow }
  { out := table.render
    error := if b.failures = 0 then none else some (.failures b.failures b.findings.length) }

def runCheck (files : Files) (g : Flag.Given) : Outcome :=
  if g.operands.isEmpty then { error := some .checkCount }
  else match (do return (← settings files g, ← g.operands.mapM (readListing files))) with
    | .error e => { error := some e }
    | .ok (s, cs) =>
      let sources := cs.flatMap fun c => c.methods.map ListedMethod.source
      summary (Batch.run s.engine none sources)

def runDumpConfig (files : Files) (g : Flag.Given) : Outcome :=
  match settings files g with
  | .ok s => { out := s.toToml }
  | .error e => { error := some e }

/-- A command line that was not understood. Only the first line of the message is shown. -/
def misused (e : FlagError) : Outcome :=
  { out := ("Incorrect Usage: " ++ e.message : Text).takeWhile (· ≠ Text.byte '\n')
    error := some (.usage e) }

/-- Reads flags; help may be asked for under one name only. -/
def readFlags (flags : List Flag) (args : List Text) : Except FlagError Flag.Given := do
  let g ← Flag.readArgs flags args
  if (g.switch? "help").isSome && (g.switch? "h").isSome then throw (.twoForms "h" "help")
  return g

def asksHelp (g : Flag.Given) : Bool := ((g.switch? "help").or (g.switch? "h")).getD false

/-- The names of the command that shows help, which every command has. -/
def helpNames : List Text := ["help", "h"]

/-- What the program has help for. -/
def topics : List Text := ["trace", "check", "dumpconfig", "help", "h"]

/-- Shows the help on the topic that is named first, or help in general. -/
def showHelp (topics : List Text) : List Text → Outcome
  | [] => {}
  | name :: _ =>
    if name.isEmpty || topics.contains name then {} else { error := some (.noHelp name) }

/-- Runs the command that shows help, which has help on itself. The arguments hold no more
than `fuel` commands. -/
def runHelp (topics : List Text) : Nat → List Text → Outcome
  | 0, _ => {}
  | fuel + 1, args =>
    match readFlags helpFlags args with
    | .error e => misused e
    | .ok g =>
      match g.operands with
      | name :: rest =>
        if helpNames.contains name && !asksHelp g then runHelp helpNames fuel rest
        else showHelp topics g.operands
      | [] => {}

/-- Runs a command with its arguments. -/
def runWith (c : Command) (files : Files) (args : List Text) : Outcome :=
  match readFlags c.flags args with
  | .error e => misused e
  | .ok g =>
    if asksHelp g then showHelp helpNames g.operands
    else if g.operands.head?.any helpNames.contains then
      runHelp helpNames args.length (g.operands.drop 1)
    else match c with
      | .trace => runTrace files g
      | .check => runCheck files g
      | .dumpConfig => runDumpConfig files g

/-- Runs the program. -/
def run (files : Files) (args : List Text) : Outcome :=
  match readFlags helpFlags args with
  | .error e => misused e
  | .ok g =>
    match g.operands with
    | [] => {}
    | name :: rest =>
      if asksHelp g then showHelp topics g.operands
      else match ofName? name with
        | some c => c.runWith files rest
        | none =>
          if helpNames.contains name then runHelp topics args.length rest
          else showHelp topics g.operands

/-- The files a command line may ask for. -/
def paths (args : List Text) : List Text :=
  match Flag.readArgs helpFlags args with
  | .error _ => []
  | .ok g =>
    match (g.operands.head?.bind ofName?).map
        fun c => Flag.readArgs c.flags (g.operands.drop 1) with
    | some (.ok g) => g.text "config" :: g.operands
    | _ => []

end Command

end OperandStack
