import Mathlib.Data.List.Induction
import OperandStack.Cache

/-!
# Caches that keep what was used last

What the entries of such a cache are after an operation, and that none of them has come from
anywhere but an addition (`Cache.IsLru.givesAdded`). The keys of a list of entries that is cut to
the capacity each time are the keys used last without their repetitions; the lemmas on lists are
what that rests on.
-/

namespace OperandStack

/-! ## Lists without repetitions -/

/-- Of the elements that are cut off, none comes back when one in front is taken out. -/
theorem take_erase_take {α : Type} [BEq α] (a : α) (l : List α) (n : Nat) :
    ((l.take (n + 1)).erase a).take n = (l.erase a).take n := by
  induction l generalizing n with
  | nil => rfl
  | cons b l ih =>
      rw [List.take_succ_cons, List.erase_cons, List.erase_cons]
      by_cases hb : (b == a) = true
      · rw [if_pos hb, if_pos hb, List.take_take, Nat.min_self]
      · rw [if_neg hb, if_neg hb]
        cases n with
        | zero => rfl
        | succ n => rw [List.take_succ_cons, List.take_succ_cons, ih]

theorem mem_take_append_cons_iff {α : Type} {a : α} {l r : List α} (h : a ∉ l) {n : Nat} :
    a ∈ (l ++ a :: r).take n ↔ l.length < n := by
  rw [List.take_append, List.mem_append]
  constructor
  · rintro (hleft | hright)
    · exact absurd (List.mem_of_mem_take hleft) h
    · have hpos := List.length_pos_of_mem hright
      rw [List.length_take] at hpos
      omega
  · intro hlt
    obtain ⟨k, hk⟩ : ∃ k, n - l.length = k + 1 := ⟨n - l.length - 1, by omega⟩
    rw [hk, List.take_succ_cons]
    exact .inr List.mem_cons_self

section
variable {α : Type} [BEq α] [LawfulBEq α]

theorem filter_eraseDups (p : α → Bool) (l : List α) :
    l.eraseDups.filter p = (l.filter p).eraseDups := by
  -- What is left to do for `a :: l` is about `l` without `a`, which is shorter but no tail.
  induction hn : l.length using Nat.strongRecOn generalizing l with
  | ind n ih =>
      cases l with
      | nil => rfl
      | cons a l =>
          have hshorter : (l.filter fun b => !b == a).length < n := by
            have hle := List.length_filter_le (fun b => !b == a) l
            rw [List.length_cons] at hn
            omega
          have hcomm : (l.filter fun b => !b == a).filter p =
              (l.filter p).filter fun b => !b == a := by
            simp only [List.filter_filter, Bool.and_comm]
          rw [List.eraseDups_cons, List.filter_cons, ih _ hshorter _ rfl, hcomm]
          by_cases hp : p a = true
          · rw [if_pos hp, List.filter_cons_of_pos hp, List.eraseDups_cons]
          · have hkept : (l.filter p).filter (fun b => !b == a) = l.filter p := by
              apply List.filter_eq_self.2
              intro b hb
              have hne : b ≠ a := by
                rintro rfl
                exact hp (List.mem_filter.1 hb).2
              simpa using hne
            rw [if_neg hp, List.filter_cons_of_neg hp, hkept]

theorem nodup_eraseDups (l : List α) : l.eraseDups.Nodup := by
  induction l with
  | nil => exact List.nodup_nil
  | cons a l ih =>
      rw [List.eraseDups_cons, ← filter_eraseDups, List.nodup_cons]
      exact ⟨by simp, ih.filter _⟩

/-- An element that is added in front is taken out further back. -/
theorem eraseDups_cons_eq_erase (a : α) (l : List α) :
    (a :: l).eraseDups = a :: l.eraseDups.erase a := by
  rw [List.eraseDups_cons, ← filter_eraseDups, (nodup_eraseDups l).erase_eq_filter]
  rfl

end

namespace Cache

variable {K V σ : Type}

theorem after_snoc (c : Cache K V σ) (calls : List (Call K V)) (call : Call K V) :
    c.after (calls ++ [call]) = c.call (c.after calls) call := by
  simp [after]

variable [BEq K]

theorem recent_isLru (capacity : Nat) :
    (recent capacity : Cache K V (List (K × V))).IsLru capacity id where
  empty := rfl
  get entries key := by
    simp only [recent]
    cases hfound : entries.lookup key <;> simp [hfound]
  hit entries key value hfound := by
    have hfound : entries.lookup key = some value := hfound
    simp only [recent, hfound, id]
  miss entries key hmissing := by
    have hmissing : entries.lookup key = none := hmissing
    simp only [recent, hmissing, id]
  add _ _ _ := rfl
  purge _ := rfl
  size _ := rfl

variable {entries : List (K × V)} {key other : K} {value : V}

theorem mem_promote {p : K × V} (h : p ∈ promote entries key value) :
    p = (key, value) ∨ p ∈ entries :=
  (List.mem_cons.1 h).imp_right List.mem_of_mem_eraseP

theorem keys_promote (entries : List (K × V)) (key : K) (value : V) :
    (promote entries key value).map (·.1) = key :: (entries.map (·.1)).erase key := by
  rw [promote, List.map_cons, List.erase_eq_eraseP', List.eraseP_map]
  rfl

variable [LawfulBEq K]

theorem mem_of_lookup (h : entries.lookup key = some value) : (key, value) ∈ entries := by
  obtain ⟨before, after, hentries, -⟩ := List.lookup_eq_some_iff.1 h
  simp [hentries]

theorem mem_keys_iff : key ∈ entries.map (·.1) ↔ (entries.lookup key).isSome := by
  rw [List.lookup_isSome_iff, List.mem_map]
  simp only [beq_iff_eq, eq_comm (a := key)]

theorem lookup_eraseP_of_ne (h : key ≠ other) (entries : List (K × V)) :
    (entries.eraseP (·.1 == other)).lookup key = entries.lookup key := by
  induction entries with
  | nil => rfl
  | cons p entries ih =>
      by_cases hp : p.1 = other
      · have hne : (key == p.1) = false := beq_false_of_ne (hp ▸ h)
        rw [List.eraseP_cons, beq_iff_eq.2 hp, List.lookup_cons, hne]
        rfl
      · rw [List.eraseP_cons, beq_false_of_ne hp, cond_false, List.lookup_cons, List.lookup_cons,
          ih]

theorem lookup_promote_of_ne (h : key ≠ other) (entries : List (K × V)) (value : V) :
    (promote entries other value).lookup key = entries.lookup key := by
  rw [promote, List.lookup_cons, beq_false_of_ne h, lookup_eraseP_of_ne h]

variable {c : Cache K V σ} {capacity : Nat} {view : σ → List (K × V)}

/-- No entry has come into a cache otherwise than by an addition. -/
theorem IsLru.added_of_mem (h : c.IsLru capacity view) (calls : List (Call K V)) :
    ∀ p ∈ view (c.after calls), .add p.1 p.2 ∈ calls := by
  induction calls using List.reverseRecOn with
  | nil =>
      intro p hp
      have hempty : view (c.after []) = [] := h.empty
      rw [hempty] at hp
      cases hp
  | append_singleton calls call ih =>
      intro p hp
      rw [after_snoc] at hp
      rw [List.mem_append, List.mem_singleton]
      cases call with
      | get key =>
          refine .inl (ih p ?_)
          rcases hfound : (view (c.after calls)).lookup key with _ | value
          · exact h.miss _ _ hfound ▸ hp
          · rw [call, h.hit _ _ _ hfound] at hp
            rcases mem_promote hp with rfl | hp
            · exact mem_of_lookup hfound
            · exact hp
      | add key value =>
          rw [call, h.add] at hp
          rcases mem_promote (List.mem_of_mem_take hp) with rfl | hp
          · exact .inr rfl
          · exact .inl (ih p hp)
      | purge =>
          rw [call, h.purge] at hp
          cases hp

theorem IsLru.givesAdded (h : c.IsLru capacity view) : c.GivesAdded := by
  intro calls key value hfound
  rw [h.get] at hfound
  exact h.added_of_mem calls _ (mem_of_lookup hfound)

end Cache

end OperandStack
