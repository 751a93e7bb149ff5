import OperandStack.Proofs.ReadBack
import OperandStack.Proofs.Shape

/-!
# Ranges of table switches

A table switch has a label for each key of its range. The number of keys is found in 64-bit words,
and it is compared with the number of labels on the line. Both ends of a range fit into a word and
are in order, so that there is one range only whose size looks right and is not: the range of all
words has 2 ^ 64 keys, and that is zero in a word (`eq_word64_size_iff`).
-/

namespace OperandStack

/-! ## Words -/

theorem isWord64_iff {n : Int} :
    isWord64 n = true ↔ -9223372036854775808 ≤ n ∧ n < 9223372036854775808 := by
  rw [isWord64, Bool.and_eq_true, decide_eq_true_eq, decide_eq_true_eq]

theorem Numeral.range_of_withSign {negative : Bool} {bits n : Nat} {k : Int}
    (h : withSign negative bits n = .ok k) :
    -(Nat.pow 2 (bits - 1) : Nat) ≤ k ∧ k < (Nat.pow 2 (bits - 1) : Nat) := by
  have hpos : 0 < Nat.pow 2 (bits - 1) := Nat.pow_pos (by decide)
  unfold withSign at h
  repeat' split at h
  all_goals cases h
  all_goals
    constructor
    all_goals omega

theorem Numeral.isWord64_of_int? {t : Text} {n : Int} (h : int? t = some n) :
    isWord64 n = true := by
  have hread : readInt 64 t = .ok n := by
    unfold int? at h
    cases hread : readInt 64 t with
    | error why => rw [hread] at h; cases h
    | ok k =>
        rw [hread] at h
        cases h
        rfl
  unfold readInt at hread
  cases hdigits : readUnsigned 64 (splitSign t).2 with
  | error why => simp only [hdigits, bind, Except.bind, reduceCtorEq] at hread
  | ok k =>
      simp only [hdigits, bind, Except.bind] at hread
      rw [isWord64_iff]
      exact range_of_withSign hread

/-- The size of a range, found in words, is the number of its keys, unless it has all words for
keys. -/
theorem eq_word64_size_iff {lo hi : Int} (hlo : isWord64 lo = true) (hhi : isWord64 hi = true)
    (hle : lo ≤ hi) (n : Nat) :
    (n : Int) = word64 (hi - lo + 1) ↔
      n < 9223372036854775808 ∧
        (n : Int) =
          if lo = -9223372036854775808 ∧ hi = 9223372036854775807 then 0 else hi - lo + 1 := by
  rw [isWord64_iff] at hlo hhi
  by_cases hsmall : hi - lo + 1 < 9223372036854775808
  · rw [word64_of_range (by omega) hsmall, if_neg (by omega)]
    omega
  · -- The word for a larger size is negative, and only that for 2 ^ 64 is not.
    have hwrap : word64 (hi - lo + 1) = hi - lo + 1 - 18446744073709551616 := by
      have hsize : Nat.pow 2 64 = 18446744073709551616 := rfl
      simp only [word64, hsize, Int.bmod]
      split <;> omega
    rw [hwrap]
    split <;> omega

/-! ## Reading -/

namespace Line

variable {op : Opcode} {args : List Text} {lo hi : Int} {targets : List (Option Text)}
  {fallback : Option Text}

/-- The words of a table switch: both ends of its range, its labels, a mark and one label more. -/
def tableWords (low high : Text) (labels : List Text) (last : Text) : List Text :=
  low :: high :: (labels ++ [("default" : Text), last])

theorem drop_take_tableWords (low high : Text) (labels : List Text) (last : Text) :
    ((tableWords low high labels last).drop 2).take ((tableWords low high labels last).length - 4) =
      labels := by
  simp [tableWords]

theorem exists_tableWords {low high third fourth last : Text} {rest front : List Text}
    (h : (low :: high :: third :: fourth :: rest).reverse = last :: ("default" : Text) :: front) :
    ∃ labels, low :: high :: third :: fourth :: rest = tableWords low high labels last := by
  have hargs := congrArg List.reverse h
  rw [List.reverse_reverse, List.reverse_cons, List.reverse_cons, List.append_assoc] at hargs
  match front.reverse, hargs with
  | [], hargs => simp at hargs
  | [_], hargs => simp at hargs
  | first :: second :: labels, hargs =>
      obtain ⟨rfl, rfl, hrest⟩ : low = first ∧ high = second ∧ _ := by simpa using hargs
      exact ⟨labels, by rw [tableWords, ← hrest]⟩

/-- What is read as a table switch, and as which one. -/
theorem readTable_eq_ok_iff :
    readTable args = .ok (.tableSwitch lo hi targets fallback) ↔
      ∃ (low high : Text) (labels : List Text) (last : Text),
        args = tableWords low high labels last ∧
          Numeral.int? low = some lo ∧ Numeral.int? high = some hi ∧ lo ≤ hi ∧
          (labels.length : Int) = word64 (hi - lo + 1) ∧
          targets = labels.map some ∧ fallback = some last := by
  constructor
  · intro h
    unfold readTable at h
    dsimp only at h
    split at h
    case h_2 => cases h
    case h_1 low high third fourth rest last mark front hfront =>
      split at h
      · cases h
      · next hmark =>
        rw [Decidable.not_not.1 hmark] at hfront
        obtain ⟨labels, hargs⟩ := exists_tableWords hfront
        rw [hargs, drop_take_tableWords] at h
        split at h
        · next hlow hhigh =>
          split at h
          · cases h
          · next hle =>
            split at h
            · cases h
            · next hcount =>
              cases h
              exact ⟨low, high, labels, last, hargs, hlow, hhigh, Int.not_lt.1 hle,
                Decidable.not_not.1 hcount, rfl, rfl⟩
        · cases h
  · rintro ⟨low, high, labels, last, rfl, hlow, hhigh, hle, hcount, rfl, rfl⟩
    have hrev : (tableWords low high labels last).reverse =
        last :: ("default" : Text) :: (labels.reverse ++ [high, low]) := by
      simp [tableWords]
    obtain ⟨third, fourth, rest, hback⟩ :
        ∃ third fourth rest, labels ++ [("default" : Text), last] = third :: fourth :: rest := by
      cases labels with
      | nil => exact ⟨_, _, _, rfl⟩
      | cons label labels => cases labels <;> exact ⟨_, _, _, rfl⟩
    unfold readTable
    rw [hrev, drop_take_tableWords]
    simp only [tableWords, hback, hlow, hhigh, Int.not_lt.2 hle, hcount, ne_eq, not_true_eq_false,
      if_false]

theorem readTable_of_readOperands
    (h : readOperands op args = .ok (.tableSwitch lo hi targets fallback)) :
    readTable args = .ok (.tableSwitch lo hi targets fallback) := by
  unfold readOperands at h
  dsimp only at h
  split at h
  case h_18 => exact h
  case h_3 =>
    obtain ⟨n, -, hins⟩ := exists_of_bind_eq_ok h
    cases hins
  case h_11 =>
    obtain ⟨member, -, hins⟩ := exists_of_bind_eq_ok h
    cases hins
  case h_13 =>
    obtain ⟨member, -, hins⟩ := exists_of_bind_eq_ok h
    cases hins
  case h_15 =>
    unfold readCallSite at h
    split at h
    · cases h
    · obtain ⟨member, -, hins⟩ := exists_of_bind_eq_ok h
      cases hins
    · cases h
  case h_5 | h_7 | h_19 => split at h <;> cases h
  all_goals cases h

theorem exists_readTable {line : Text}
    (h : decode line = .ok (.instruction (.tableSwitch lo hi targets fallback))) :
    ∃ args, readTable args = .ok (.tableSwitch lo hi targets fallback) := by
  rw [decode_eq_result] at h
  rcases read_cases line with ⟨p, hread⟩ | ⟨name, hread⟩ | ⟨op, rest, hnames⟩
  · rw [hread] at h
    cases h
  · rw [hread] at h
    cases h
  · rw [hnames.read_eq] at h
    unfold readInstruction at h
    split at h
    · obtain ⟨c, -, hins⟩ := exists_of_bind_eq_ok (Reading.ofInstruction_result h)
      cases hins
    · unfold readLookup at h
      repeat' split at h
      all_goals cases h
    · exact ⟨_, readTable_of_readOperands (Reading.ofInstruction_result h)⟩

def tableText (lo hi : Int) (labels : List Text) (last : Text) : Text :=
  Opcode.tableswitch.toText ++
    Text.listed " " (tableWords (Text.ofInt lo) (Text.ofInt hi) labels last)

theorem read_tableText (lo hi : Int) {labels : List Text} {last : Text}
    (hlabels : ∀ label ∈ labels, label.isWord = true) (hlast : last.isWord = true) :
    read (tableText lo hi labels last) =
      .ofInstruction (readTable (tableWords (Text.ofInt lo) (Text.ofInt hi) labels last)) := by
  have hform : Opcode.tableswitch.form = .tableSwitch := by decide +kernel
  have hwords : ∀ w ∈ tableWords (Text.ofInt lo) (Text.ofInt hi) labels last, w.isWord = true := by
    intro w hw
    simp only [tableWords, List.mem_cons, List.mem_append, List.not_mem_nil, or_false] at hw
    rcases hw with rfl | rfl | hw | rfl | rfl
    · exact Text.isWord_ofInt lo
    · exact Text.isWord_ofInt hi
    · exact hlabels w hw
    · decide
    · exact hlast
  rw [tableText, read_words (Opcode.readable (by decide +kernel)) (by simp [hform])
    (by simp [hform]) hwords]
  unfold readOperands
  rw [hform]

/-- A table switch goes to the labels that its names have in the table afterwards. -/
theorem enter_table (met : LabelTable) (lo hi : Int) (labels : List Text) (last : Text) :
    met.enter (.ofInstruction (.ok (.tableSwitch lo hi (labels.map some) (some last)))) =
      (met.mention (last :: labels),
        .ok (.instruction (.tableSwitch lo hi
          ((labels.map (met.mention (last :: labels)).object).map some)
          (some ((met.mention (last :: labels)).object last))))) := by
  have htargets : (Instruction.tableSwitch lo hi (labels.map some) (some last)).targets =
      last :: labels := by
    simp [Instruction.targets]
  rw [LabelTable.enter_of_instruction rfl, htargets, Instruction.map_tableSwitch, List.map_map,
    List.map_map]
  rfl

end Line

/-! ## Main results -/

/-- A table switch that has been read has its ends in order and a label for each key, except that
the switch on all 64-bit words has no label. Every switch with as many labels is read from its
line, as the switch that goes to the labels of these names. -/
theorem tables_have_a_label_for_each_key (met : LabelTable) (lo hi : Int) :
    (∀ (line : Text) (targets : List (Option Label)) (fallback : Option Label),
      (met.enter (Line.read line)).2 = .ok (.instruction (.tableSwitch lo hi targets fallback)) →
        isWord64 lo ∧ isWord64 hi ∧ lo ≤ hi ∧
          (targets.length : Int) =
            if lo = -9223372036854775808 ∧ hi = 9223372036854775807 then 0 else hi - lo + 1) ∧
    ∀ (labels : List Text) (last : Text),
      isWord64 lo → isWord64 hi → (∀ label ∈ labels, label.isWord) → last.isWord →
        labels.length < 9223372036854775808 →
        ((∃ (targets : List Label) (fallback : Label),
            (met.enter (Line.read (Line.tableText lo hi labels last))).2 =
              .ok (.instruction (.tableSwitch lo hi (targets.map some) (some fallback))) ∧
            targets.map (·.name) = labels ∧ fallback.name = last) ↔
          lo ≤ hi ∧ (labels.length : Int) =
            if lo = -9223372036854775808 ∧ hi = 9223372036854775807 then 0 else hi - lo + 1) := by
  have hread (line : Text) (targets : List (Option Label)) (fallback : Option Label)
      (h : (met.enter (Line.read line)).2 =
        .ok (.instruction (.tableSwitch lo hi targets fallback))) :
      isWord64 lo ∧ isWord64 hi ∧ lo ≤ hi ∧
        (targets.length : Int) =
          if lo = -9223372036854775808 ∧ hi = 9223372036854775807 then 0 else hi - lo + 1 := by
    have hdecode := LabelTable.decode_of_enter h
    rw [CodeElement.named, CodeElement.map, Instruction.map_tableSwitch] at hdecode
    obtain ⟨args, hargs⟩ := Line.exists_readTable hdecode
    obtain ⟨low, high, labels, last, -, hlow, hhigh, hle, hcount, htargets, -⟩ :=
      Line.readTable_eq_ok_iff.1 hargs
    have hlo := Numeral.isWord64_of_int? hlow
    have hhi := Numeral.isWord64_of_int? hhigh
    have hlength : targets.length = labels.length := by
      simpa using congrArg List.length htargets
    rw [hlength]
    exact ⟨hlo, hhi, hle, ((eq_word64_size_iff hlo hhi hle _).1 hcount).2⟩
  refine ⟨hread, ?_⟩
  intro labels last hlo hhi hlabels hlast hfits
  constructor
  · rintro ⟨targets, fallback, h, rfl, -⟩
    simpa using (hread _ _ _ h).2.2
  · rintro ⟨hle, hcount⟩
    have htable : Line.readTable (Line.tableWords (Text.ofInt lo) (Text.ofInt hi) labels last) =
        .ok (.tableSwitch lo hi (labels.map some) (some last)) :=
      Line.readTable_eq_ok_iff.2 ⟨_, _, labels, last, rfl, Line.int?_ofInt_of_isWord64 hlo,
        Line.int?_ofInt_of_isWord64 hhi, hle,
        (eq_word64_size_iff hlo hhi hle _).2 ⟨hfits, hcount⟩, rfl, rfl⟩
    refine ⟨labels.map (met.mention (last :: labels)).object,
      (met.mention (last :: labels)).object last, ?_, ?_, rfl⟩
    · rw [Line.read_tableText lo hi hlabels hlast, htable, Line.enter_table]
    · rw [List.map_map]
      exact List.map_id labels

/-- The last three words, with a label for each. -/
theorem tables_have_a_label_for_each_key_upperEnd :
    Line.tableText 9223372036854775805 9223372036854775807 ["A", "B", "A"] "D" =
        "tableswitch 9223372036854775805 9223372036854775807 A B A default D" ∧
      ∃ (targets : List Label) (fallback : Label),
        (LabelTable.enter {} (Line.read
            "tableswitch 9223372036854775805 9223372036854775807 A B A default D")).2 =
          .ok (.instruction (.tableSwitch 9223372036854775805 9223372036854775807
            (targets.map some) (some fallback))) ∧
        targets.map (·.name) = ["A", "B", "A"] ∧ fallback.name = "D" ∧
        (targets.length : Int) = 9223372036854775807 - 9223372036854775805 + 1 := by
  have htext : Line.tableText 9223372036854775805 9223372036854775807 ["A", "B", "A"] "D" =
      "tableswitch 9223372036854775805 9223372036854775807 A B A default D" := by decide +kernel
  obtain ⟨targets, fallback, hread, htargets, hfallback⟩ :=
    ((tables_have_a_label_for_each_key {} 9223372036854775805 9223372036854775807).2
      ["A", "B", "A"] "D" (by decide) (by decide) (by decide) (by decide) (by decide)).2 (by decide)
  rw [htext] at hread
  refine ⟨htext, targets, fallback, hread, htargets, hfallback, ?_⟩
  have hcount := ((tables_have_a_label_for_each_key {} _ _).1 _ _ _ hread).2.2.2
  rwa [List.length_map] at hcount

/-- All words are a range with no label. -/
theorem table_of_all_words_has_no_label :
    (LabelTable.enter {} (Line.read
        "tableswitch -9223372036854775808 9223372036854775807 default D")).2 =
      .ok (.instruction (.tableSwitch (-9223372036854775808) 9223372036854775807 []
        (some ⟨0, "D"⟩))) ∧
    (([] : List (Option Label)).length : Int) ≠
      9223372036854775807 - (-9223372036854775808) + 1 := by
  have htext : Line.tableText (-9223372036854775808) 9223372036854775807 [] "D" =
      "tableswitch -9223372036854775808 9223372036854775807 default D" := by decide +kernel
  have htable : Line.readTable (Line.tableWords (Text.ofInt (-9223372036854775808))
      (Text.ofInt 9223372036854775807) [] "D") =
      .ok (.tableSwitch (-9223372036854775808) 9223372036854775807 [] (some "D")) :=
    Line.readTable_eq_ok_iff.2 ⟨_, _, [], "D", rfl, Line.int?_ofInt_of_isWord64 (by decide),
      Line.int?_ofInt_of_isWord64 (by decide), by decide, by decide, rfl, rfl⟩
  refine ⟨?_, by decide⟩
  rw [← htext, Line.read_tableText _ _ (List.forall_mem_nil _) (by decide), htable]
  exact congrArg Prod.snd (Line.enter_table {} _ _ [] "D")

end OperandStack
