import OperandStack.Text.BreakClass
import OperandStack.Text.Utf8

/-!
# Clusters of characters

`clusters` splits characters into those that are shown as one sign: a letter with its marks, a
syllable with its parts, a flag, joined pictographs. Where a cluster ends depends on the next
character and on what stands before it.
-/

namespace OperandStack

/-- What stands at the end of a cluster. -/
inductive ClusterState where
  | other
  | carriageReturn
  | control
  | prepend
  /-- A leading consonant, a vowel after it, a trailing consonant after that. -/
  | leading
  | vowel
  | trailing
  | pictograph
  | joinedPictograph
  /-- One half of a flag, or both. -/
  | halfFlag
  | flag
deriving DecidableEq, Repr

namespace ClusterState

/-- The state after a character, whatever stands before it. -/
def ofClass : BreakClass → ClusterState
  | .carriageReturn => .carriageReturn
  | .lineFeed => .control
  | .control => .control
  | .prepend => .prepend
  | .leading => .leading
  | .vowel => .vowel
  | .openSyllable => .vowel
  | .trailing => .trailing
  | .closedSyllable => .trailing
  | .pictograph => .pictograph
  | .regional => .halfFlag
  | .other => .other
  | .extend => .other
  | .joiner => .other
  | .spacingMark => .other

/-- Whether a character of some class starts a cluster, unless what stands before it joins
it. -/
def startsCluster : BreakClass → Bool
  | .extend => false
  | .joiner => false
  | .spacingMark => false
  | _ => true

/-- Controls start a cluster even after a character that joins the next one. -/
def isControl : BreakClass → Bool
  | .carriageReturn => true
  | .lineFeed => true
  | .control => true
  | _ => false

/-- The state after a further character, and whether a cluster starts with it. -/
def step : ClusterState → BreakClass → ClusterState × Bool
  | .carriageReturn, .lineFeed => (.other, false)
  | .carriageReturn, k => (ofClass k, true)
  | .control, k => (ofClass k, true)
  | .prepend, k => (ofClass k, isControl k)
  | .leading, .leading => (.leading, false)
  | .leading, .vowel => (.vowel, false)
  | .leading, .openSyllable => (.vowel, false)
  | .leading, .closedSyllable => (.trailing, false)
  | .vowel, .vowel => (.vowel, false)
  | .vowel, .trailing => (.trailing, false)
  | .trailing, .trailing => (.trailing, false)
  | .pictograph, .extend => (.pictograph, false)
  | .pictograph, .joiner => (.joinedPictograph, false)
  | .joinedPictograph, .pictograph => (.pictograph, false)
  | .halfFlag, .regional => (.flag, false)
  | .flag, .regional => (.halfFlag, true)
  | _, k => (ofClass k, startsCluster k)

end ClusterState

/-- Splits characters behind others: the first ones that still belong to the cluster of those,
and the clusters after it. -/
def splitCluster : ClusterState → List Char → List Char × List (List Char)
  | _, [] => ([], [])
  | s, c :: cs =>
    let (s, starts) := s.step (BreakClass.ofChar c)
    let (same, more) := splitCluster s cs
    if starts then ([], (c :: same) :: more) else (c :: same, more)

def clusters : List Char → List (List Char)
  | [] => []
  | c :: cs =>
    let (same, more) := splitCluster (ClusterState.ofClass (BreakClass.ofChar c)) cs
    (c :: same) :: more

end OperandStack
