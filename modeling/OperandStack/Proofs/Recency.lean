import OperandStack.Proofs.Lookup

/-!
# Which descriptors are in the cache

The descriptors that were looked up since the last purge, each at its latest use and the latest
first, are the entries of a cache that keeps what was used last, as far as they fit
(`DescriptorCache.keys_after`). This is all there is to know about hits and misses: a descriptor is
found unless it has been purged, or as many others as the cache can hold have been looked up since.

An object never changes its place for another of the same descriptor, and an object that the parser
makes is a new one, so a lookup gives the same object as before exactly where the descriptor is
found.
-/

namespace OperandStack

/-! ## Uses -/

namespace DescriptorCache

def Call.used? : Call → Option Text
  | .lookup desc => if (MethodDescriptor.parse desc).isOk then some desc else none
  | .purge => none

/-- The descriptors that were looked up since the last purge, the latest first. -/
def used (calls : List Call) : List Text :=
  (calls.reverse.takeWhile (· ≠ .purge)).filterMap Call.used?

variable {desc : Text} {calls : List Call}

theorem used_snoc (calls : List Call) (call : Call) :
    used (calls ++ [call]) = if call = .purge then [] else call.used?.toList ++ used calls := by
  by_cases hpurge : call = .purge
  · simp [used, hpurge]
  · rcases hused : call.used? with _ | desc <;> simp [used, hpurge, hused]

theorem used?_of_parsed {m : MethodDescriptor} (hm : MethodDescriptor.parse desc = .ok m) :
    (Call.lookup desc).used? = some desc := by
  simp [Call.used?, hm, Except.isOk, Except.toBool]

theorem used?_of_refused {e : DescriptorError} (he : MethodDescriptor.parse desc = .error e) :
    (Call.lookup desc).used? = none := by
  simp [Call.used?, he, Except.isOk, Except.toBool]

theorem used_snoc_lookup {m : MethodDescriptor} (hm : MethodDescriptor.parse desc = .ok m)
    (calls : List Call) : used (calls ++ [.lookup desc]) = desc :: used calls := by
  rw [used_snoc, if_neg nofun, used?_of_parsed hm]
  rfl

theorem eq_of_used? {call : Call} (h : call.used? = some desc) : call = .lookup desc := by
  cases call with
  | purge => cases h
  | lookup other =>
      simp only [Call.used?, Option.ite_none_right_eq_some, Option.some.injEq] at h
      rw [h.2]

theorem mem_used (h : desc ∈ used calls) : .lookup desc ∈ calls := by
  obtain ⟨call, hcall, hused⟩ := List.mem_filterMap.1 h
  rw [← eq_of_used? hused]
  exact List.mem_reverse.1 ((List.takeWhile_sublist _).subset hcall)

theorem used_append_of_purge {before between : List Call} (h : .purge ∈ between) :
    used (before ++ between) = used between := by
  induction between using List.reverseRecOn with
  | nil => cases h
  | append_singleton between call ih =>
      rw [← List.append_assoc, used_snoc, used_snoc]
      by_cases hpurge : call = .purge
      · rw [if_pos hpurge, if_pos hpurge]
      · have hearlier : .purge ∈ between := by simpa [Ne.symm hpurge] using h
        rw [ih hearlier]

theorem used_append {before between : List Call} (h : .purge ∉ between) :
    used (before ++ between) = used between ++ used before := by
  induction between using List.reverseRecOn with
  | nil => rw [List.append_nil]; rfl
  | append_singleton between call ih =>
      simp only [List.mem_append, List.mem_singleton, not_or] at h
      have hcall : call ≠ .purge := Ne.symm h.2
      rw [← List.append_assoc, used_snoc, used_snoc, ih h.1, if_neg hcall, if_neg hcall,
        List.append_assoc]

/-! ## Lookups -/

section
variable {σ : Type} {store : Store σ} {entries : σ → List (Text × SharedDescriptor)}
variable {c : DescriptorCache σ} {object : SharedDescriptor}

/-- What a lookup does, in terms of the entries. -/
structure LooksUp (store : Store σ) (entries : σ → List (Text × SharedDescriptor))
    (c : DescriptorCache σ) (desc : Text) (kept : List (Text × SharedDescriptor)) (made : Nat)
    (answer : Except DescriptorError SharedDescriptor) (present : Bool) : Prop where
  entries : entries (c.lookup store desc).1.kept = kept
  made : (c.lookup store desc).1.made = made
  result : (c.lookup store desc).2.result = answer
  present : (c.lookup store desc).2.present = present

theorem lookup_of_found (hstore : store.IsLru capacity entries)
    (h : (entries c.kept).lookup desc = some object) :
    LooksUp store entries c desc (Cache.promote (entries c.kept) desc object) c.made (.ok object)
      true := by
  have hget : c.get? store desc = ({ c with kept := (store.get c.kept desc).1 }, some object) := by
    simp only [get?, hstore.get, h]
  have hlookup : c.lookup store desc =
      ({ c with kept := (store.get c.kept desc).1 }, ⟨.ok object, true⟩) := by
    simp only [lookup, hget]
  constructor <;> rw [hlookup]
  exact hstore.hit _ _ _ h

theorem get?_of_missing (hstore : store.IsLru capacity entries)
    (h : (entries c.kept).lookup desc = none) :
    c.get? store desc = ({ c with kept := (store.get c.kept desc).1 }, none) := by
  simp only [get?, hstore.get, h]

theorem lookup_of_parsed (hstore : store.IsLru capacity entries)
    (h : (entries c.kept).lookup desc = none) {m : MethodDescriptor}
    (hm : MethodDescriptor.parse desc = .ok m) :
    LooksUp store entries c desc
      ((Cache.promote (entries c.kept) desc ⟨c.made, m⟩).take capacity) (c.made + 1)
      (.ok ⟨c.made, m⟩) false := by
  have hlookup : c.lookup store desc =
      (⟨store.add (store.get c.kept desc).1 desc ⟨c.made, m⟩, c.made + 1⟩,
        ⟨.ok ⟨c.made, m⟩, false⟩) := by
    simp only [lookup, get?_of_missing hstore h, parse, hm, add]
  constructor <;> rw [hlookup]
  rw [hstore.add, hstore.miss _ _ h]

theorem lookup_of_refused (hstore : store.IsLru capacity entries)
    (h : (entries c.kept).lookup desc = none) {e : DescriptorError}
    (he : MethodDescriptor.parse desc = .error e) :
    LooksUp store entries c desc (entries c.kept) c.made (.error e) false := by
  have hlookup : c.lookup store desc =
      ({ c with kept := (store.get c.kept desc).1 }, ⟨.error e, false⟩) := by
    simp only [lookup, get?_of_missing hstore h, parse, he]
  constructor <;> rw [hlookup]
  exact hstore.miss _ _ h

theorem present_lookup_iff (hstore : store.IsLru capacity entries) :
    (c.lookup store desc).2.present = true ↔ desc ∈ (entries c.kept).map (·.1) := by
  rw [Cache.mem_keys_iff]
  rcases hfound : (entries c.kept).lookup desc with _ | object
  · rcases hparse : MethodDescriptor.parse desc with e | m
    · simp [(lookup_of_refused hstore hfound hparse).present]
    · simp [(lookup_of_parsed hstore hfound hparse).present]
  · simp [(lookup_of_found hstore hfound).present]

/-- A descriptor that cannot be parsed is not in the cache and does not get there. -/
theorem Coherent.lookup_refused (hstore : store.IsLru capacity entries) (h : c.Coherent store)
    {e : DescriptorError} (he : MethodDescriptor.parse desc = .error e) :
    LooksUp store entries c desc (entries c.kept) c.made (.error e) false := by
  have hmissing : (entries c.kept).lookup desc = none := by
    rw [Option.eq_none_iff_forall_ne_some]
    intro object hfound
    have hget : (c.get? store desc).2 = some object := (hstore.get _ _).trans hfound
    have hparse := h.parse_of_get? hstore.givesAdded hget
    rw [he] at hparse
    cases hparse
  exact lookup_of_refused hstore hmissing he

/-- A descriptor that can be parsed becomes the most recent entry. -/
theorem keys_lookup (hstore : store.IsLru capacity entries)
    (hsize : ((entries c.kept).map (·.1)).length ≤ capacity) {m : MethodDescriptor}
    (hm : MethodDescriptor.parse desc = .ok m) :
    (entries (c.lookup store desc).1.kept).map (·.1) =
      (desc :: ((entries c.kept).map (·.1)).erase desc).take capacity := by
  rcases hfound : (entries c.kept).lookup desc with _ | object
  · rw [(lookup_of_parsed hstore hfound hm).entries, List.map_take, Cache.keys_promote]
  · have hmem : desc ∈ (entries c.kept).map (·.1) :=
      Cache.mem_keys_iff.2 (Option.isSome_of_eq_some hfound)
    have hlength : (desc :: ((entries c.kept).map (·.1)).erase desc).length ≤ capacity := by
      have hpos := List.length_pos_of_mem hmem
      rw [List.length_cons, List.length_erase_of_mem hmem]
      omega
    rw [(lookup_of_found hstore hfound).entries, Cache.keys_promote,
      List.take_of_length_le hlength]

/-- The entries are the latest descriptors looked up, in the order of their last use. -/
theorem keys_after (hstore : store.IsLru capacity entries) (calls : List Call) :
    (entries (after store calls).kept).map (·.1) = (used calls).eraseDups.take capacity := by
  induction calls using List.reverseRecOn with
  | nil =>
      have hempty : entries (after store []).kept = [] := hstore.empty
      rw [hempty]
      rfl
  | append_singleton calls call ih =>
      rw [after_snoc]
      cases call with
      | purge =>
          have hempty : entries ((after store calls).call store .purge).kept = [] :=
            hstore.purge _
          rw [hempty, used_snoc, if_pos rfl]
          rfl
      | lookup desc =>
          have hcoherent := coherent_after hstore.givesAdded calls
          rcases hparse : MethodDescriptor.parse desc with e | m
          · have hsame : entries ((after store calls).call store (.lookup desc)).kept =
                entries (after store calls).kept :=
              (hcoherent.lookup_refused hstore hparse).entries
            rw [hsame, used_snoc, if_neg nofun, used?_of_refused hparse, ih]
            rfl
          · have hsize : ((entries (after store calls).kept).map (·.1)).length ≤ capacity := by
              rw [ih]
              exact List.length_take_le _ _
            have hkeys : (entries ((after store calls).call store (.lookup desc)).kept).map (·.1) =
                (desc :: ((entries (after store calls).kept).map (·.1)).erase desc).take capacity :=
              keys_lookup hstore hsize hparse
            have hcut : capacity = 4095 + 1 := rfl
            rw [hkeys, ih, used_snoc_lookup hparse, eraseDups_cons_eq_erase, hcut,
              List.take_succ_cons, List.take_succ_cons, take_erase_take]

theorem size_after (hstore : store.IsLru capacity entries) (calls : List Call) :
    (after store calls).size store = min capacity (used calls).eraseDups.length := by
  have hsize : (after store calls).size store = (entries (after store calls).kept).length :=
    hstore.size _
  rw [hsize, ← List.length_map (·.1), keys_after hstore, List.length_take]

/-! ## Hits and misses -/

/-- A descriptor that has been looked up is found unless it has been purged, or as many others as
the cache can hold have been looked up since. -/
theorem mem_keys_after_iff (hstore : store.IsLru capacity entries) (before : List Call)
    {between : List Call} {m : MethodDescriptor} (hm : MethodDescriptor.parse desc = .ok m)
    (hbetween : .lookup desc ∉ between) :
    desc ∈ (entries (after store (before ++ .lookup desc :: between)).kept).map (·.1) ↔
      .purge ∉ between ∧ (used between).eraseDups.length < capacity := by
  have hother : desc ∉ used between := fun h => hbetween (mem_used h)
  rw [keys_after hstore, List.append_cons]
  by_cases hpurge : .purge ∈ between
  · have hnot : desc ∉ (used between).eraseDups.take capacity :=
      fun h => hother (List.mem_eraseDups.1 (List.mem_of_mem_take h))
    rw [used_append_of_purge hpurge]
    exact iff_of_false hnot fun h => h.1 hpurge
  · have hkept : ((desc :: used before).removeAll (used between)) =
        desc :: (used before).removeAll (used between) := by
      simp [List.removeAll, hother]
    have hnot : desc ∉ (used between).eraseDups := fun h => hother (List.mem_eraseDups.1 h)
    rw [used_append hpurge, used_snoc_lookup hm, List.eraseDups_append, hkept, List.eraseDups_cons,
      mem_take_append_cons_iff hnot]
    exact (and_iff_right hpurge).symm

/-! ## Objects -/

/-- Every object in the cache has been made. -/
def Numbered (entries : σ → List (Text × SharedDescriptor)) (c : DescriptorCache σ) : Prop :=
  ∀ p ∈ entries c.kept, p.2.number < c.made

theorem Numbered.promote (h : c.Numbered entries) {bound : Nat} (hbound : c.made ≤ bound)
    (hobject : object.number < bound) :
    ∀ p ∈ Cache.promote (entries c.kept) desc object, p.2.number < bound := by
  intro p hp
  rcases Cache.mem_promote hp with rfl | hp
  · exact hobject
  · have hmade := h p hp
    omega

theorem Numbered.lookup (hstore : store.IsLru capacity entries) (h : c.Numbered entries)
    (desc : Text) :
    (c.lookup store desc).1.Numbered entries ∧ c.made ≤ (c.lookup store desc).1.made ∧
      ∀ object, (c.lookup store desc).2.result = .ok object →
        (entries (c.lookup store desc).1.kept).lookup desc = some object := by
  unfold Numbered
  rcases hfound : (entries c.kept).lookup desc with _ | object
  · rcases hparse : MethodDescriptor.parse desc with e | m
    · obtain ⟨hentries, hmade, hresult, -⟩ := lookup_of_refused hstore hfound hparse
      rw [hentries, hmade, hresult]
      exact ⟨h, Nat.le_refl _, nofun⟩
    · obtain ⟨hentries, hmade, hresult, -⟩ := lookup_of_parsed hstore hfound hparse
      rw [hentries, hmade, hresult]
      refine ⟨fun p hp => ?_, Nat.le_succ _, fun object hobject => ?_⟩
      · exact h.promote (Nat.le_succ _) (Nat.lt_succ_self _) p (List.mem_of_mem_take hp)
      · cases hobject
        exact List.lookup_cons_self
  · obtain ⟨hentries, hmade, hresult, -⟩ := lookup_of_found hstore hfound
    rw [hentries, hmade, hresult]
    have hnumber := h _ (Cache.mem_of_lookup hfound)
    refine ⟨h.promote (Nat.le_refl _) hnumber, Nat.le_refl _, fun object hobject => ?_⟩
    cases hobject
    exact List.lookup_cons_self

theorem Numbered.call (hstore : store.IsLru capacity entries) (h : c.Numbered entries)
    (call : Call) : (c.call store call).Numbered entries ∧ c.made ≤ (c.call store call).made := by
  cases call with
  | lookup desc => exact ⟨(h.lookup hstore desc).1, (h.lookup hstore desc).2.1⟩
  | purge =>
      have hempty : entries (c.call store .purge).kept = [] := hstore.purge _
      refine ⟨?_, Nat.le_refl _⟩
      unfold Numbered
      rw [hempty]
      exact List.forall_mem_nil _

theorem Numbered.foldl (hstore : store.IsLru capacity entries) (h : c.Numbered entries)
    (calls : List Call) :
    (calls.foldl (DescriptorCache.call store) c).Numbered entries ∧
      c.made ≤ (calls.foldl (DescriptorCache.call store) c).made := by
  induction calls generalizing c with
  | nil => exact ⟨h, Nat.le_refl _⟩
  | cons call calls ih =>
      obtain ⟨hnext, hle⟩ := h.call hstore call
      obtain ⟨hlast, hle'⟩ := ih hnext
      exact ⟨hlast, Nat.le_trans hle hle'⟩

/-- Calls for other descriptors may push an object out of the cache; they never replace it. -/
theorem lookup_of_call (hstore : store.IsLru capacity entries) {call : Call}
    (hcall : call ≠ .lookup desc)
    (h : (entries (c.call store call).kept).lookup desc = some object) :
    (entries c.kept).lookup desc = some object := by
  cases call with
  | purge =>
      have hempty : entries (c.call store .purge).kept = [] := hstore.purge _
      rw [hempty] at h
      cases h
  | lookup other =>
      have hne : desc ≠ other := fun heq => hcall (heq ▸ rfl)
      rw [DescriptorCache.call] at h
      rcases hfound : (entries c.kept).lookup other with _ | found
      · rcases hparse : MethodDescriptor.parse other with e | m
        · rwa [(lookup_of_refused hstore hfound hparse).entries] at h
        · rw [(lookup_of_parsed hstore hfound hparse).entries] at h
          have hwhole := (List.take_prefix _ _).lookup_eq_some h
          rwa [Cache.lookup_promote_of_ne hne] at hwhole
      · rw [(lookup_of_found hstore hfound).entries] at h
        rwa [← Cache.lookup_promote_of_ne hne _ found]

theorem lookup_of_foldl (hstore : store.IsLru capacity entries) {calls : List Call}
    (hcalls : .lookup desc ∉ calls)
    (h : (entries (calls.foldl (DescriptorCache.call store) c).kept).lookup desc = some object) :
    (entries c.kept).lookup desc = some object := by
  induction calls generalizing c with
  | nil => exact h
  | cons call calls ih =>
      simp only [List.mem_cons, not_or] at hcalls
      exact lookup_of_call hstore (Ne.symm hcalls.1) (ih hcalls.2 h)

/-- The object that a lookup gave is given again if and only if the descriptor is still found. -/
theorem Numbered.same_object_iff (hstore : store.IsLru capacity entries) (hc : c.Numbered entries)
    {between : List Call} (hobject : (c.lookup store desc).2.result = .ok object)
    (hbetween : .lookup desc ∉ between) {last : DescriptorCache σ}
    (hlast : between.foldl (DescriptorCache.call store) (c.lookup store desc).1 = last) :
    (last.lookup store desc).2.result = .ok object ↔ desc ∈ (entries last.kept).map (·.1) := by
  obtain ⟨hnext, -, hgiven⟩ := hc.lookup hstore desc
  have hentered := hgiven object hobject
  obtain ⟨-, hmade⟩ := hnext.foldl hstore between
  have hnumber := hnext _ (Cache.mem_of_lookup hentered)
  rw [hlast] at hmade
  rw [Cache.mem_keys_iff]
  rcases hfound : (entries last.kept).lookup desc with _ | found
  · refine iff_of_false (fun hsame => ?_) nofun
    rcases hparse : MethodDescriptor.parse desc with e | m
    · rw [(lookup_of_refused hstore hfound hparse).result] at hsame
      cases hsame
    · rw [(lookup_of_parsed hstore hfound hparse).result] at hsame
      cases hsame
      exact Nat.lt_irrefl _ (Nat.lt_of_lt_of_le hnumber hmade)
  · have hsame : found = object := by
      rw [← hlast] at hfound
      exact Option.some.inj ((lookup_of_foldl hstore hbetween hfound).symm.trans hentered)
    rw [(lookup_of_found hstore hfound).result, hsame]
    exact iff_of_true rfl rfl

end

/-- Whatever the descriptors are kept in, as long as what was used last stays there up to the
capacity, the cache shows in nothing but the objects that are shared. After any calls a lookup gives
what the parser gives, and if that is a refusal it leaves the entries and their order as they were.
The entries are the descriptors that were looked up since the last purge and could be parsed, each
at its latest use and the latest first, as many of them as fit; there are never more. A lookup gives
the object that the lookup before it gave for the same descriptor exactly if there was no purge
since and fewer other descriptors than the cache can hold; this is also when the descriptor is found
present. -/
theorem cache_is_transparent {σ : Type} {store : Store σ}
    {entries : σ → List (Text × SharedDescriptor)} (hstore : store.IsLru capacity entries)
    (calls : List Call) :
    (∀ desc, ((after store calls).lookup store desc).2.parsed = MethodDescriptor.parse desc) ∧
    (∀ desc e, MethodDescriptor.parse desc = .error e →
      entries ((after store calls).lookup store desc).1.kept = entries (after store calls).kept) ∧
    (entries (after store calls).kept).map (·.1) = (used calls).eraseDups.take 4096 ∧
    (after store calls).size store = min 4096 (used calls).eraseDups.length ∧
    (after store calls).size store ≤ 4096 ∧
    ∀ desc between object, .lookup desc ∉ between →
      ((after store calls).lookup store desc).2.result = .ok object →
      (((after store (calls ++ .lookup desc :: between)).lookup store desc).2.result =
          .ok object ↔
        .purge ∉ between ∧ (used between).eraseDups.length < 4096) ∧
      (((after store (calls ++ .lookup desc :: between)).lookup store desc).2.present = true ↔
        .purge ∉ between ∧ (used between).eraseDups.length < 4096) := by
  have hcoherent := coherent_after hstore.givesAdded calls
  have hsize := size_after hstore calls
  refine ⟨fun desc => (hcoherent.lookup hstore.givesAdded desc).2, ?_, keys_after hstore calls,
    hsize, hsize ▸ Nat.min_le_left _ _, ?_⟩
  · intro desc e he
    exact (hcoherent.lookup_refused hstore he).entries
  · intro desc between object hbetween hobject
    have hm : MethodDescriptor.parse desc = .ok object.parsed := by
      rw [← (hcoherent.lookup hstore.givesAdded desc).2, Answer.parsed, hobject]
      rfl
    have hempty : (empty store).Numbered entries := by
      have hnone : entries (empty store).kept = [] := hstore.empty
      unfold Numbered
      rw [hnone]
      exact List.forall_mem_nil _
    have hnumbered : (after store calls).Numbered entries := (hempty.foldl hstore calls).1
    have hafter : between.foldl (call store) ((after store calls).lookup store desc).1 =
        after store (calls ++ .lookup desc :: between) := by
      rw [after, after, List.foldl_append, List.foldl_cons]
      rfl
    have hsame := hnumbered.same_object_iff hstore hobject hbetween hafter
    have hfound := mem_keys_after_iff hstore calls hm hbetween
    exact ⟨hsame.trans hfound, (present_lookup_iff hstore).trans hfound⟩

/-- Lookups of other descriptors, one of them malformed, leave an object in place; a purge does
not. -/
theorem cache_is_transparent_refetched :
    recent.IsLru capacity id ∧
      ∃ object, ((after recent []).lookup recent "(II)I").2.result = .ok object ∧
        ((after recent [.lookup "(II)I", .lookup "(II", .lookup "()V"]).lookup recent
          "(II)I").2.result = .ok object ∧
        ((after recent [.lookup "(II)I", .purge]).lookup recent "(II)I").2.result ≠
          .ok object := by
  have hrecent : recent.IsLru capacity id := Cache.recent_isLru capacity
  obtain ⟨-, -, -, -, -, hsame⟩ := cache_is_transparent hrecent []
  have hobject : ((after recent []).lookup recent "(II)I").2.result =
      .ok ⟨0, ⟨["I", "I"], "I"⟩⟩ := by
    decide +kernel
  refine ⟨hrecent, _, hobject, ?_, ?_⟩
  · exact (hsame _ [.lookup "(II", .lookup "()V"] _ (by decide) hobject).1.2 (by decide +kernel)
  · intro hagain
    have hnot := (hsame _ [.purge] _ (by decide) hobject).1.1 hagain
    exact hnot.1 (by decide)

end DescriptorCache

end OperandStack
