import OperandStack.Stack.Buffer

/-!
# Stacks as lists

The entries of a stack, from the bottom to the top, are a list. `Stack.onList` says what each
request makes of a list and how it is answered, and a stack does the same for as long as no negative
number of entries is dropped, whatever is left in the storage above its top
(`Stack.respond_eq_onList`).

A negative count is not refused. It moves the top up into the storage, so that entries come back
that had been dropped, or it is a crash where the storage ends.
-/

namespace OperandStack.Stack

/-! ## Requests to a list -/

def contents (s : Stack) : List Value := s.live.reverse

/-- The index of the entry `n` places below the top, which is the last one. -/
def place? (l : List Value) (n : Int) : Option Nat :=
  if 0 ≤ n ∧ n < l.length then some (l.length - 1 - n.toNat) else none

def lacks (l : List Value) (needed : Int) : Answer :=
  .stopped (.fault (.underflow ⟨l.length, needed⟩))

/-- What a request makes of a list, and the answer to it. -/
def onList (l : List Value) : Request → List Value × Answer
  | .push v => (l ++ [v], .done)
  | .pop =>
    match l.getLast? with
    | some v => (l.dropLast, .value v)
    | none => (l, lacks l 1)
  | .popN n =>
    if 0 ≤ n ∧ n ≤ l.length then (l.take (l.length - n.toNat), .done) else (l, lacks l n)
  | .peek n =>
    match (place? l n).bind (l[·]?) with
    | some v => (l, .value v)
    | none => (l, lacks l (word64 (n + 1)))
  | .replace n v =>
    match place? l n with
    | some i => (l.set i v, .done)
    | none => (l, lacks l (word64 (n + 1)))
  | .effect ins => (l, effectAnswer ins l.reverse)
  | .contents => (l, .contents l)

/-- Requests one after the other, with their answers. -/
def onListAll (l : List Value) : List Request → List Value × List Answer
  | [] => (l, [])
  | r :: rs =>
    let later := onListAll (onList l r).1 rs
    (later.1, (onList l r).2 :: later.2)

def respondAll (s : Option Stack) : List Request → Option Stack × List Answer
  | [] => (s, [])
  | r :: rs =>
    let later := respondAll (respond s r).1 rs
    (later.1, (respond s r).2 :: later.2)

/-- Drops a negative number of entries. -/
def Request.dropsBack : Request → Bool
  | .popN n => n < 0
  | _ => false

theorem Request.eq_popN_of_dropsBack {r : Request} (h : r.dropsBack = true) :
    ∃ k, r = .popN (.negSucc k) := by
  cases r with
  | popN n =>
      cases n with
      | ofNat k =>
          have hlt : Int.ofNat k < 0 := by simpa only [dropsBack, decide_eq_true_eq] using h
          exact absurd hlt (Int.not_lt.2 (Int.natCast_nonneg k))
      | negSucc k => exact ⟨k, rfl⟩
  | _ => cases h

/-- A list refuses what it is too short for, and then it stays as it is. -/
theorem onList_cases (l : List Value) {r : Request} (hr : ∀ ins, r ≠ .effect ins) :
    (∀ why, (onList l r).2 ≠ .stopped why) ∨
      ∃ u, onList l r = (l, .stopped (.fault (.underflow u))) := by
  cases r with
  | effect ins => exact absurd rfl (hr ins)
  | push v | contents =>
      refine .inl fun why h => ?_
      cases h
  | pop | popN n | peek n | replace n v =>
      simp only [onList]
      split
      · refine .inl fun why h => ?_
        cases h
      · exact .inr ⟨_, rfl⟩

theorem onList_popN_isPrefix (l : List Value) (n : Int) : (onList l (.popN n)).1 <+: l := by
  simp only [onList]
  split
  · exact List.take_prefix _ _
  · exact List.prefix_rfl

/-! ## One request -/

variable {s : Stack}

theorem length_contents (s : Stack) : s.contents.length = s.live.length := by
  rw [contents, List.length_reverse]

theorem place?_contents {n : Int} (h : 0 ≤ n ∧ n < s.live.length) :
    place? s.contents n = some (s.live.length - 1 - n.toNat) := by
  rw [place?, length_contents, if_pos h]

theorem place?_contents_eq_none {n : Int} (h : ¬ (0 ≤ n ∧ n < s.live.length)) :
    place? s.contents n = none := by
  rw [place?, length_contents, if_neg h]

theorem getElem?_place? (s : Stack) (n : Int) :
    (place? s.contents n).bind (s.contents[·]?) = if 0 ≤ n then s.live[n.toNat]? else none := by
  by_cases h : 0 ≤ n ∧ n < s.live.length
  · have hplace : s.live.length - 1 - (s.live.length - 1 - n.toNat) = n.toNat := by omega
    rw [place?_contents h, Option.bind_some, contents, List.getElem?_reverse (by omega), hplace,
      if_pos h.1]
  · rw [place?_contents_eq_none h, Option.bind_none]
    split
    · rw [List.getElem?_eq_none (by omega)]
    · rfl

theorem respond_push (s : Stack) (v : Value) :
    ∃ s', respond (some s) (.push v) = (some s', .done) ∧ s'.contents = s.contents ++ [v] := by
  refine ⟨s.push v, rfl, ?_⟩
  unfold push contents
  split <;> simp

theorem respond_pop (s : Stack) :
    ∃ s', respond (some s) .pop = (some s', (onList s.contents .pop).2) ∧
      s'.contents = (onList s.contents .pop).1 := by
  obtain ⟨live, room⟩ := s
  cases live with
  | nil => exact ⟨⟨[], room⟩, rfl, rfl⟩
  | cons v live =>
      refine ⟨⟨live, v :: room⟩, ?_, ?_⟩
      · simp [respond, pop, onList, contents]
      · simp [onList, contents]

theorem respond_popN (s : Stack) (k : Nat) :
    ∃ s', respond (some s) (.popN (.ofNat k)) = (some s', (onList s.contents (.popN k)).2) ∧
      s'.contents = (onList s.contents (.popN k)).1 := by
  by_cases h : k ≤ s.live.length
  · refine ⟨s.shrink k, ?_, ?_⟩
    · simp [respond, popN, onList, length_contents, h]
    · have hrest : s.live.length - (s.live.length - k) = k := by omega
      simp [onList, h, contents, shrink, List.take_reverse, hrest]
  · refine ⟨s, ?_, ?_⟩
    · simp [respond, popN, onList, length_contents, h, lacks]
    · simp [onList, length_contents, h]

theorem respond_peek (s : Stack) (n : Int) :
    respond (some s) (.peek n) = (some s, (onList s.contents (.peek n)).2) ∧
      (onList s.contents (.peek n)).1 = s.contents := by
  simp only [respond, view, Operands.peek, onList, getElem?_place?, lacks, length_contents]
  by_cases hn : 0 ≤ n
  · simp only [hn, if_true]
    cases s.live[n.toNat]? with
    | none => exact ⟨rfl, rfl⟩
    | some v => exact ⟨rfl, rfl⟩
  · simp only [hn, if_false, and_true]
    cases s.live[n.toNat]? with
    | none => rfl
    | some v => rfl

theorem reverse_set {live : Operands} {i : Nat} (h : i < live.length) (v : Value) :
    (live.set i v).reverse = live.reverse.set (live.length - 1 - i) v := by
  induction live generalizing i with
  | nil => cases h
  | cons a live ih =>
      cases i with
      | zero => simp
      | succ i =>
          have hi : i < live.length := by simpa using h
          have hindex : (a :: live).length - 1 - (i + 1) = live.length - 1 - i := by
            simp only [List.length_cons]
            omega
          rw [List.set_cons_succ, List.reverse_cons, ih hi, List.reverse_cons, hindex,
            List.set_append_left]
          rw [List.length_reverse]
          omega

theorem respond_replace (s : Stack) (n : Int) (v : Value) :
    ∃ s', respond (some s) (.replace n v) = (some s', (onList s.contents (.replace n v)).2) ∧
      s'.contents = (onList s.contents (.replace n v)).1 := by
  by_cases h : 0 ≤ n ∧ n < s.live.length
  · refine ⟨{ s with live := s.live.set n.toNat v }, ?_, ?_⟩
    · simp [respond, replace, onList, place?_contents h, h]
    · simp only [onList, place?_contents h]
      exact reverse_set (by omega) v
  · have hbounds : (decide (0 ≤ n) && decide (n < s.live.length)) = false := by simpa using h
    refine ⟨s, ?_, ?_⟩
    · simp [respond, replace, onList, place?_contents_eq_none h, hbounds, lacks, length_contents]
    · simp only [onList, place?_contents_eq_none h]

/-- A stack answers a request as the list of its entries does, and holds the same entries
afterwards. -/
theorem respond_eq_onList (s : Stack) {r : Request} (hr : r.dropsBack = false) :
    ∃ s', respond (some s) r = (some s', (onList s.contents r).2) ∧
      s'.contents = (onList s.contents r).1 := by
  cases r with
  | push v => exact respond_push s v
  | pop => exact respond_pop s
  | popN n =>
      cases n with
      | ofNat k => exact respond_popN s k
      | negSucc k => simp [Request.dropsBack, Int.negSucc_lt_zero] at hr
  | peek n => exact ⟨s, (respond_peek s n).1, (respond_peek s n).2.symm⟩
  | replace n v => exact respond_replace s n v
  | effect ins =>
      refine ⟨s, ?_, rfl⟩
      simp [respond, view, onList, contents]
  | contents => exact ⟨s, rfl, rfl⟩

/-- A negative count brings entries back from the storage, or is a crash where that ends. -/
theorem respond_dropsBack (s : Stack) (k : Nat) :
    respond (some s) (.popN (.negSucc k)) = (some s, .stopped (.crash .bounds)) ∨
      ∃ s', respond (some s) (.popN (.negSucc k)) = (some s', .done) ∧
        ∃ more, more.length = k + 1 ∧ s'.contents = s.contents ++ more := by
  by_cases h : k + 1 ≤ s.room.length
  · refine .inr ⟨⟨(s.room.take (k + 1)).reverse ++ s.live, s.room.drop (k + 1)⟩, ?_,
      s.room.take (k + 1), ?_, ?_⟩
    · simp only [respond, popN, expose?, if_pos h]
    · rw [List.length_take, Nat.min_eq_left h]
    · simp [contents]
  · refine .inl ?_
    simp only [respond, popN, expose?, if_neg h]

/-- What has been dropped is brought back as it was. -/
theorem expose?_shrink {n : Nat} (h : n ≤ s.live.length) : (s.shrink n).expose? n = some s := by
  have hlength : (s.live.take n).reverse.length = n := by
    rw [List.length_reverse, List.length_take, Nat.min_eq_left h]
  have hroom : n ≤ (s.shrink n).room.length := by
    rw [shrink, List.length_append, hlength]
    exact Nat.le_add_right _ _
  rw [expose?, if_pos hroom]
  simp only [shrink, List.take_append_of_le_length (Nat.le_of_eq hlength.symm),
    List.take_of_length_le (Nat.le_of_eq hlength), List.reverse_reverse, List.take_append_drop,
    List.drop_append_of_le_length (Nat.le_of_eq hlength.symm),
    List.drop_of_length_le (Nat.le_of_eq hlength), List.nil_append]

/-! ## Runs -/

theorem exists_respond (s : Stack) (r : Request) : ∃ s', (respond (some s) r).1 = some s' := by
  cases hr : r.dropsBack with
  | false =>
      obtain ⟨s', hrespond, -⟩ := respond_eq_onList s hr
      exact ⟨s', by rw [hrespond]⟩
  | true =>
      obtain ⟨k, rfl⟩ := Request.eq_popN_of_dropsBack hr
      rcases respond_dropsBack s k with hrespond | ⟨s', hrespond, -⟩
      · exact ⟨s, by rw [hrespond]⟩
      · exact ⟨s', by rw [hrespond]⟩

theorem exists_respondAll (s : Stack) (rs : List Request) :
    ∃ s', (respondAll (some s) rs).1 = some s' := by
  induction rs generalizing s with
  | nil => exact ⟨s, rfl⟩
  | cons r rs ih =>
      obtain ⟨s', hs'⟩ := exists_respond s r
      rw [respondAll, hs']
      exact ih s'

theorem respondAll_eq_onListAll (s : Stack) {rs : List Request}
    (hrs : ∀ r ∈ rs, r.dropsBack = false) :
    ∃ s', respondAll (some s) rs = (some s', (onListAll s.contents rs).2) ∧
      s'.contents = (onListAll s.contents rs).1 := by
  induction rs generalizing s with
  | nil => exact ⟨s, rfl, rfl⟩
  | cons r rs ih =>
      obtain ⟨hr, hrest⟩ := List.forall_mem_cons.1 hrs
      obtain ⟨s', hrespond, hcontents⟩ := respond_eq_onList s hr
      obtain ⟨s'', hlater, hend⟩ := ih s' hrest
      rw [hcontents] at hlater hend
      refine ⟨s'', ?_, hend⟩
      rw [respondAll, hrespond, hlater]
      rfl

/-! ## Main results -/

/-- After any requests to a new stack, the next one is answered as by a list, unless it drops a
negative number of entries. The list either does what is asked or is too short for it and stays as
it is, and dropping leaves a beginning of it. A negative count is a crash or brings back as many
entries from the storage; right after these have been dropped, it brings them back as they were. -/
theorem stack_follows_list (rs : List Request) :
    ((∀ r ∈ rs, r.dropsBack = false) →
      ∃ s, respondAll (some empty) rs = (some s, (onListAll [] rs).2) ∧
        s.contents = (onListAll [] rs).1) ∧
    ∃ s, (respondAll (some empty) rs).1 = some s ∧
      (∀ r : Request, r.dropsBack = false →
        ∃ s', respond (some s) r = (some s', (onList s.contents r).2) ∧
          s'.contents = (onList s.contents r).1) ∧
      (∀ r : Request, (∀ ins, r ≠ .effect ins) →
        (∀ why, (onList s.contents r).2 ≠ .stopped why) ∨
          ∃ u, onList s.contents r = (s.contents, .stopped (.fault (.underflow u)))) ∧
      (∀ n : Int, (onList s.contents (.popN n)).1 <+: s.contents) ∧
      (∀ k : Nat,
        respond (some s) (.popN (.negSucc k)) = (some s, .stopped (.crash .bounds)) ∨
          ∃ s', respond (some s) (.popN (.negSucc k)) = (some s', .done) ∧
            ∃ more, more.length = k + 1 ∧ s'.contents = s.contents ++ more) ∧
      ∀ k : Nat, k + 1 ≤ s.contents.length →
        respondAll (some s) [.popN (.ofNat (k + 1)), .popN (.negSucc k)] =
          (some s, [.done, .done]) := by
  refine ⟨respondAll_eq_onListAll empty, ?_⟩
  obtain ⟨s, hs⟩ := exists_respondAll empty rs
  refine ⟨s, hs, ?_, fun r => onList_cases s.contents, onList_popN_isPrefix s.contents,
    respond_dropsBack s, ?_⟩
  · intro r hr
    exact respond_eq_onList s hr
  · intro k h
    rw [length_contents] at h
    simp only [respondAll, respond, popN, if_pos h, expose?_shrink h]

/-- Entries dropped, brought back, looked at and replaced, and more asked for than there are. -/
theorem stack_follows_list_mixed :
    let rs : List Request :=
      [.push (.typed "I"), .push (.typed "J"), .popN 1, .popN (-1), .push .unknown, .popN 9]
    (Request.replace 2 (.typed "F")).dropsBack = false ∧
      ∃ s s', (respondAll (some empty) rs).1 = some s ∧
        s.contents = [.typed "I", .typed "J", .unknown] ∧
        respond (some s) (.replace 2 (.typed "F")) = (some s', .done) ∧
        s'.contents = [.typed "F", .typed "J", .unknown] := by
  intro rs
  obtain ⟨s, hs, hlist, -⟩ := (stack_follows_list rs).2
  obtain ⟨s', hrespond, hcontents⟩ := hlist (.replace 2 (.typed "F")) rfl
  have hstart : (respondAll (some empty) rs).1.map contents =
      some [.typed "I", .typed "J", .unknown] := by decide +kernel
  rw [hs, Option.map_some, Option.some.injEq] at hstart
  rw [hstart] at hrespond hcontents
  exact ⟨rfl, s, s', hs, hstart, hrespond, hcontents⟩

/-- Dropping minus one entry brings back what had been popped, and where nothing had been it is a
crash. -/
theorem negative_count_is_not_refused :
    (respondAll (some empty) [.push (.typed "I"), .pop]).1.map contents = some [] ∧
      respondAll (some empty) [.push (.typed "I"), .pop, .popN (-1)] =
        (some ⟨[.typed "I"], []⟩, [.done, .value (.typed "I"), .done]) ∧
      (respondAll (some empty) [.push (.typed "I"), .popN (-1)]).2 =
        [.done, .stopped (.crash .bounds)] := by
  decide +kernel

end OperandStack.Stack
