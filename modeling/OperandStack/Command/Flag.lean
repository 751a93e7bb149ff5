import OperandStack.Text.Numeral
import OperandStack.Text.Quoted

/-!
# Flags on the command line

Flags stand in front of the other arguments, behind one dash or two. A flag takes its value
after an equals sign or from the next argument; a switch takes one only after an equals sign.
Two dashes alone end the flags.
-/

namespace OperandStack

inductive FlagKind where
  | text
  | switch
  | number
deriving DecidableEq, Repr

structure Flag where
  name : Text
  kind : FlagKind
deriving DecidableEq, Repr

inductive FlagValue where
  | text (t : Text)
  | switch (b : Bool)
  | number (n : Int)
deriving DecidableEq, Repr

inductive FlagError where
  | syntaxOf (arg : Text)
  | undefined (name : Text)
  | switchValue (name value : Text)
  | numberValue (name value : Text) (why : Numeral.Fault)
  | noValue (name : Text)
  /-- A flag was given under two names. -/
  | twoForms (name other : Text)
deriving DecidableEq, Repr

namespace FlagError

/-- What is wrong with a number. -/
def numberReason : Numeral.Fault → Text
  | .malformed => "parse error"
  | .outOfRange => "value out of range"

def message : FlagError → Text
  | .syntaxOf arg => "bad flag syntax: " ++ arg
  | .undefined name => "flag provided but not defined: -" ++ name
  | .switchValue name value =>
    "invalid boolean value " ++ Text.quote value ++ " for -" ++ name ++ ": parse error"
  | .numberValue name value why =>
    "invalid value " ++ Text.quote value ++ " for flag -" ++ name ++ ": " ++ numberReason why
  | .noValue name => "flag needs an argument: -" ++ name
  | .twoForms name other => "Cannot use two forms of the same flag: " ++ name ++ " " ++ other

end FlagError

namespace Flag

/-- The spellings of truth values. -/
def truths : List (Text × Bool) :=
  [("1", true), ("t", true), ("T", true), ("true", true), ("TRUE", true), ("True", true),
    ("0", false), ("f", false), ("F", false), ("false", false), ("FALSE", false),
    ("False", false)]

/-- Reads the value of a flag. -/
def readValue (f : Flag) (value : Text) : Except FlagError FlagValue :=
  match f.kind with
  | .text => .ok (.text value)
  | .switch =>
    match truths.lookup value with
    | some b => .ok (.switch b)
    | none => .error (.switchValue f.name value)
  | .number =>
    match Numeral.readLiteral value with
    | .ok n => .ok (.number n)
    | .error why => .error (.numberValue f.name value why)

/-- An argument as a flag: a name and perhaps a value. -/
inductive Shape where
  /-- Not a flag: here the other arguments start. -/
  | operand
  /-- Two dashes alone. -/
  | terminator
  | bad
  | flag (name : Text) (value : Option Text)
deriving DecidableEq, Repr

def shape (arg : Text) : Shape :=
  match arg with
  | dash :: b :: rest =>
    if dash ≠ Text.byte '-' then .operand
    else if b = Text.byte '-' && rest.isEmpty then .terminator
    else
      let name := if b = Text.byte '-' then rest else b :: rest
      if name.head?.any fun c => c = Text.byte '-' || c = Text.byte '=' then .bad
      else match Text.cut? (Text.byte '=') name with
        | some (name, value) => .flag name (some value)
        | none => .flag name none
  | _ => .operand

/-- Flags that were given, and the arguments after them. -/
structure Given where
  values : List (Text × FlagValue) := []
  operands : List Text := []
deriving DecidableEq, Repr

def Given.add (g : Given) (name : Text) (v : FlagValue) : Given :=
  { g with values := (name, v) :: g.values }

/-- Reads flags up to the first argument that is none. -/
def readArgs (flags : List Flag) : List Text → Except FlagError Given
  | [] => .ok {}
  | arg :: rest =>
    match shape arg with
    | .operand => .ok { operands := arg :: rest }
    | .terminator => .ok { operands := rest }
    | .bad => .error (.syntaxOf arg)
    | .flag name value =>
      match flags.find? (·.name = name) with
      | none => .error (.undefined name)
      | some f =>
        match value, f.kind, rest with
        | some value, _, rest => do
          let v ← f.readValue value
          return (← readArgs flags rest).add name v
        | none, .switch, rest => do return (← readArgs flags rest).add name (.switch true)
        | none, _, value :: rest => do
          let v ← f.readValue value
          return (← readArgs flags rest).add name v
        | none, _, [] => .error (.noValue name)

namespace Given

/-- The last value given to a flag. -/
def last? (g : Given) (name : Text) : Option FlagValue := g.values.reverse.lookup name

def text (g : Given) (name : Text) : Text :=
  match g.last? name with
  | some (.text t) => t
  | _ => []

def switch? (g : Given) (name : Text) : Option Bool :=
  match g.last? name with
  | some (.switch b) => some b
  | _ => none

def number? (g : Given) (name : Text) : Option Int :=
  match g.last? name with
  | some (.number n) => some n
  | _ => none

end Given

end Flag

end OperandStack
