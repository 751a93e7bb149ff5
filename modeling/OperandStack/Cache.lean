import OperandStack.Text.Basic

/-!
# Caches

A cache keeps values under keys and may drop them. Nothing is known of one but its operations and
what is assumed of them: that what is found has been added (`Cache.GivesAdded`), or that the entries
used last are the ones that are kept (`Cache.IsLru`). `Cache.recent` is the list of such entries.
-/

namespace OperandStack

/-- The operations of a cache. To look for a key is a use of it and may change the cache. -/
structure Cache (K V σ : Type) where
  empty : σ
  get : σ → K → σ × Option V
  add : σ → K → V → σ
  purge : σ → σ
  size : σ → Nat

namespace Cache

variable {K V σ : Type}

/-- What is asked of a cache. -/
inductive Call (K V : Type) where
  | get (key : K)
  | add (key : K) (value : V)
  | purge
deriving DecidableEq, Repr

def call (c : Cache K V σ) (s : σ) : Call K V → σ
  | .get key => (c.get s key).1
  | .add key value => c.add s key value
  | .purge => c.purge s

/-- The cache after some calls; it is empty before the first. -/
def after (c : Cache K V σ) (calls : List (Call K V)) : σ := calls.foldl c.call c.empty

/-- What is found under a key has been added under it. -/
def GivesAdded (c : Cache K V σ) : Prop :=
  ∀ calls key value, (c.get (c.after calls) key).2 = some value → .add key value ∈ calls

variable [BEq K]

/-- The entries with one in front that replaces what stood under its key. -/
def promote (entries : List (K × V)) (key : K) (value : V) : List (K × V) :=
  (key, value) :: entries.eraseP (·.1 == key)

/-- The entries used last are kept, up to the capacity. `entries` lists what a cache holds, the
latest use first; it is a use of an entry to find it and to add it. -/
structure IsLru (c : Cache K V σ) (capacity : Nat) (entries : σ → List (K × V)) : Prop where
  empty : entries c.empty = []
  get : ∀ s key, (c.get s key).2 = (entries s).lookup key
  hit : ∀ s key value, (entries s).lookup key = some value →
    entries (c.get s key).1 = promote (entries s) key value
  miss : ∀ s key, (entries s).lookup key = none → entries (c.get s key).1 = entries s
  add : ∀ s key value, entries (c.add s key value) = (promote (entries s) key value).take capacity
  purge : ∀ s, entries (c.purge s) = []
  size : ∀ s, c.size s = (entries s).length

/-- The entries themselves, as a cache. -/
def recent (capacity : Nat) : Cache K V (List (K × V)) where
  empty := []
  get entries key :=
    match entries.lookup key with
    | some value => (promote entries key value, some value)
    | none => (entries, none)
  add entries key value := (promote entries key value).take capacity
  purge _ := []
  size := List.length

end Cache

end OperandStack
