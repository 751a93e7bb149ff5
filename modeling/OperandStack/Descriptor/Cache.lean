import OperandStack.Cache
import OperandStack.Descriptor.Method

/-!
# Descriptor cache

Parsed descriptors are kept in a cache, and callers that ask for the same descriptor are given one
object as long as it stays there. The parser makes a new object whenever it is asked; objects are
numbered in that order. A refused descriptor leaves nothing behind.
-/

namespace OperandStack

/-- A parsed descriptor, as the object that callers share. -/
structure SharedDescriptor where
  number : Nat
  parsed : MethodDescriptor
deriving DecidableEq, Repr

structure DescriptorCache (σ : Type) where
  kept : σ
  /-- Objects made so far, those that are no longer kept included. -/
  made : Nat := 0
deriving DecidableEq, Repr

namespace DescriptorCache

def capacity : Nat := 4096

/-- What the objects are kept in. -/
abbrev Store (σ : Type) := Cache Text SharedDescriptor σ

def recent : Store (List (Text × SharedDescriptor)) := Cache.recent capacity

/-- What a lookup gives: the object of the descriptor or its refusal, and whether it was present. -/
structure Answer where
  result : Except DescriptorError SharedDescriptor
  present : Bool

def Answer.parsed (a : Answer) : Except DescriptorError MethodDescriptor :=
  a.result.map (·.parsed)

/-- What is asked of the cache. -/
inductive Call where
  | lookup (desc : Text)
  | purge
deriving DecidableEq, Repr

variable {σ : Type}

/-- Makes the object of a descriptor. -/
def parse (c : DescriptorCache σ) (desc : Text) :
    DescriptorCache σ × Except DescriptorError SharedDescriptor :=
  match MethodDescriptor.parse desc with
  | .ok m => ({ c with made := c.made + 1 }, .ok ⟨c.made, m⟩)
  | .error e => (c, .error e)

variable (store : Store σ)

def empty : DescriptorCache σ := { kept := store.empty }

/-- Finds a descriptor that is present. -/
def get? (c : DescriptorCache σ) (desc : Text) : DescriptorCache σ × Option SharedDescriptor :=
  let (kept, found) := store.get c.kept desc
  ({ c with kept }, found)

def add (c : DescriptorCache σ) (desc : Text) (object : SharedDescriptor) : DescriptorCache σ :=
  { c with kept := store.add c.kept desc object }

/-- Finds or parses a descriptor. -/
def lookup (c : DescriptorCache σ) (desc : Text) : DescriptorCache σ × Answer :=
  match c.get? store desc with
  | (c, some object) => (c, ⟨.ok object, true⟩)
  | (c, none) =>
    match c.parse desc with
    | (c, .ok object) => (c.add store desc object, ⟨.ok object, false⟩)
    | (c, .error e) => (c, ⟨.error e, false⟩)

/-- Drops all entries. -/
def purge (c : DescriptorCache σ) : DescriptorCache σ := { c with kept := store.purge c.kept }

def size (c : DescriptorCache σ) : Nat := store.size c.kept

/-- The cache once it has been called. -/
def call (c : DescriptorCache σ) : Call → DescriptorCache σ
  | .lookup desc => (c.lookup store desc).1
  | .purge => c.purge store

/-- The cache after some calls; it is empty before the first. -/
def after (calls : List Call) : DescriptorCache σ := calls.foldl (call store) (empty store)

end DescriptorCache

end OperandStack
