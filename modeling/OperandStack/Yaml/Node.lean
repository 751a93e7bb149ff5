import OperandStack.Yaml.Scanner

/-!
# Nodes of a YAML document

`Node.read` gives the first document of a stream as a tree. What follows the document is not
looked at, beyond the tokens the scanner reads ahead.
-/

namespace OperandStack.Yaml

/-- Every node knows the line it starts on. A mapping lists its entries in order; a key may
be any node. -/
inductive Node where
  | scalar (line : Nat) (style : ScalarStyle) (text : Text)
  | sequence (line : Nat) (items : List Node)
  | mapping (line : Nat) (entries : List (Node × Node))
deriving Repr

namespace Node

def line : Node → Nat
  | .scalar n _ _ => n
  | .sequence n _ => n
  | .mapping n _ => n

/-- A node that was left out. -/
def missing (line : Nat) : Node := .scalar line .plain []

end Node

/-- A reader of tokens. It fails where the stream makes no sense. -/
abbrev Parse (α : Type) := StateT Scanner Option α

namespace Parse

def peek : Parse Token := Scanner.peek

def drop : Parse Unit := modify Scanner.drop

/-- The token behind the next one. -/
def dropPeek : Parse Token := do
  drop
  peek

end Parse

open Parse

mutual

/-- Reads a node. Block collections are allowed only outside flow collections, and sequences
without their own indentation only under a key. -/
def parseNode (block indentless : Bool) : Nat → Parse Node
  | 0 => failure
  | fuel + 1 => do
    let t ← peek
    match t.kind with
    | .scalar style text =>
      drop
      return .scalar t.line style text
    | .flowSequenceStart =>
      drop
      return .sequence t.line (← parseFlowItems fuel true)
    | .flowMappingStart =>
      drop
      return .mapping t.line (← parseFlowEntries fuel true)
    | .blockEntry =>
      if indentless then return .sequence t.line (← parseIndentlessItems fuel) else failure
    | .blockSequenceStart =>
      if block then
        drop
        return .sequence t.line (← parseBlockItems fuel)
      else failure
    | .blockMappingStart =>
      if block then
        drop
        return .mapping t.line (← parseBlockEntries fuel)
      else failure
    | _ => failure

/-- Reads a node, or finds none in front of a token of a kind in `ends`. -/
def parseOptional (block indentless : Bool) (ends : List TokenKind) (line : Nat) :
    Nat → Parse Node
  | 0 => failure
  | fuel + 1 => do
    let t ← peek
    if ends.contains t.kind then return .missing line else parseNode block indentless fuel

def parseBlockItems : Nat → Parse (List Node)
  | 0 => failure
  | fuel + 1 => do
    let t ← peek
    match t.kind with
    | .blockEntry =>
      drop
      let item ← parseOptional true false [.blockEntry, .blockEnd] t.line fuel
      return item :: (← parseBlockItems fuel)
    | .blockEnd =>
      drop
      return []
    | _ => failure

def parseIndentlessItems : Nat → Parse (List Node)
  | 0 => failure
  | fuel + 1 => do
    let t ← peek
    match t.kind with
    | .blockEntry =>
      drop
      let item ← parseOptional true false [.blockEntry, .key, .value, .blockEnd] t.line fuel
      return item :: (← parseIndentlessItems fuel)
    | _ => return []

def parseBlockEntries : Nat → Parse (List (Node × Node))
  | 0 => failure
  | fuel + 1 => do
    let t ← peek
    match t.kind with
    | .key =>
      drop
      let key ← parseOptional true true [.key, .value, .blockEnd] t.line fuel
      let value ← parseBlockValue fuel
      return (key, value) :: (← parseBlockEntries fuel)
    | .blockEnd =>
      drop
      return []
    | _ => failure

def parseBlockValue : Nat → Parse Node
  | 0 => failure
  | fuel + 1 => do
    let t ← peek
    match t.kind with
    | .value =>
      drop
      parseOptional true true [.key, .value, .blockEnd] t.line fuel
    | _ => return .missing t.line

/-- Items of a flow sequence. An entry with a colon is a mapping of its own. -/
def parseFlowItems : Nat → Bool → Parse (List Node)
  | 0, _ => failure
  | fuel + 1, first => do
    let t ← peek
    match t.kind with
    | .flowSequenceEnd =>
      drop
      return []
    | .flowEntry =>
      if first then failure
      else
        drop
        parseFlowItem fuel
    | _ => if first then parseFlowItem fuel else failure

def parseFlowItem : Nat → Parse (List Node)
  | 0 => failure
  | fuel + 1 => do
    let t ← peek
    match t.kind with
    | .flowSequenceEnd =>
      drop
      return []
    | .key =>
      drop
      let key ← parsePairKey fuel
      let value ← parseFlowValue .flowSequenceEnd fuel
      return .mapping t.line [(key, value)] :: (← parseFlowItems fuel false)
    | _ =>
      let item ← parseNode false false fuel
      return item :: (← parseFlowItems fuel false)

/-- The key of a mapping inside a flow sequence; a missing one takes the token in its
place. -/
def parsePairKey : Nat → Parse Node
  | 0 => failure
  | fuel + 1 => do
    let t ← peek
    if [TokenKind.value, .flowEntry, .flowSequenceEnd].contains t.kind then
      drop
      return .missing t.line
    else parseNode false false fuel

/-- The value behind a key in a flow collection closed by `close`. -/
def parseFlowValue (close : TokenKind) : Nat → Parse Node
  | 0 => failure
  | fuel + 1 => do
    let t ← peek
    match t.kind with
    | .value =>
      drop
      parseOptional false false [.flowEntry, close] t.line fuel
    | _ => return .missing t.line

def parseFlowEntries : Nat → Bool → Parse (List (Node × Node))
  | 0, _ => failure
  | fuel + 1, first => do
    let t ← peek
    match t.kind with
    | .flowMappingEnd =>
      drop
      return []
    | .flowEntry =>
      if first then failure
      else
        drop
        parseFlowEntry fuel
    | _ => if first then parseFlowEntry fuel else failure

/-- An entry of a flow mapping. A node without a key mark is a key without a value; a missing
key stands where the next token does. -/
def parseFlowEntry : Nat → Parse (List (Node × Node))
  | 0 => failure
  | fuel + 1 => do
    let t ← peek
    match t.kind with
    | .flowMappingEnd =>
      drop
      return []
    | .key =>
      let after ← dropPeek
      let key ← parseOptional false false [.value, .flowEntry, .flowMappingEnd] after.line fuel
      let value ← parseFlowValue .flowMappingEnd fuel
      return (key, value) :: (← parseFlowEntries fuel false)
    | _ =>
      let key ← parseNode false false fuel
      let _ ← peek
      return (key, .missing t.line) :: (← parseFlowEntries fuel false)

end

/-- The tokens that end a document without content. -/
def documentEnds : List TokenKind := [.directive, .documentStart, .documentEnd, .streamEnd]

/-- Reads the first document, if there is one. The token behind it is looked at. -/
def parseDocument (fuel : Nat) : Parse (Option Node) := do
  let _ ← peek
  let first ← dropPeek
  let explicit (start : Token) : Parse (Option Node) := do
    drop
    let root ← parseOptional true false documentEnds start.line fuel
    let _ ← peek
    return some root
  match first.kind with
  | .streamEnd => return none
  | .directive =>
    let start ← dropPeek
    if start.kind = .documentStart then explicit start else failure
  | .documentStart => explicit first
  | _ =>
    let root ← parseNode true false fuel
    let _ ← peek
    return some root

/-- Reads the first document of a text: `none` if the stream breaks, `some none` if it holds
no document. A character brings no more than a few tokens. -/
def Node.read (t : Text) : Option (Option Node) :=
  (parseDocument (16 * (t.length + 4))).run' (Scanner.ofText t)

end OperandStack.Yaml
