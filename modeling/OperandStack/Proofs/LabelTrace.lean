import OperandStack.Proofs.Acceptance

/-!
# Labels of rejected lines

The labels of a line are made while the line is read. A line that is rejected defines none, and none
is made for it either, with one exception: a switch on keys is read case by case. If one of its
cases is bad, then the label at the end of the line and those of the cases in front of the bad one
have been made (`Line.Misreads`).

What is reported as never defined is therefore what accepted lines go to and what such switches
have left behind, less what accepted lines define.
-/

namespace OperandStack

/-! ## Lines -/

namespace Line

/-- Cases are read up to a bad one, which is no case at all or has a key that does not ascend from
the last one. -/
inductive CasesStop : Option Int → List Text → List (Int × Text) → Prop
  | bad {last : Option Int} {word : Text} {words : List Text} :
      (∀ key target, readCase? word = some (key, target) → ∃ l ∈ last, key ≤ l) →
      CasesStop last (word :: words) []
  | next {last : Option Int} {word : Text} {words : List Text} {key : Int} {target : Text}
      {cases : List (Int × Text)} :
      readCase? word = some (key, target) → (∀ l ∈ last, l < key) →
      CasesStop (some key) words cases → CasesStop last (word :: words) ((key, target) :: cases)

/-- The line is a switch on keys, with a bad case behind the given ones and a label at its end. -/
def Misreads (line : Text) (cases : List (Int × Text)) (fallback : Text) : Prop :=
  ∃ (op : Opcode) (rest : Text) (words : List Text), Names line op rest ∧
    op.form = .lookupSwitch ∧ Text.fields rest = words ++ [("default" : Text), fallback] ∧
    CasesStop none words cases

/-- The line is rejected, and the label stays in the table. -/
def Leaves (line : Text) (name : Text) : Prop :=
  ∃ cases fallback, Misreads line cases fallback ∧ name ∈ fallback :: cases.map (·.2)

variable {last : Option Int} {words args : List Text} {cases : List (Int × Text)} {line : Text}
  {fallback name : Text} {p : LineProblem}

theorem any_le_iff {last : Option Int} {key : Int} :
    last.any (key ≤ ·) = true ↔ ∃ l ∈ last, key ≤ l := by
  cases last <;> simp

theorem casesStop_of_readCases (h : readCases last words = (cases, some p)) :
    CasesStop last words cases := by
  induction words generalizing last cases with
  | nil => cases h
  | cons word words ih =>
      simp only [readCases] at h
      split at h
      · next hword =>
        cases h
        apply CasesStop.bad
        intro key target hcase
        cases hword.symm.trans hcase
      · next key target hword =>
        split at h
        · next hlast =>
          cases h
          apply CasesStop.bad
          intro key' target' hcase
          cases hword.symm.trans hcase
          exact any_le_iff.1 hlast
        · next hlast =>
          cases hrest : readCases (some key) words with
          | mk tail problem =>
              rw [hrest] at h
              cases h
              apply CasesStop.next hword _ (ih hrest)
              rintro l rfl
              simpa using hlast

theorem CasesStop.readCases (h : CasesStop last words cases) :
    ∃ p, readCases last words = (cases, some p) := by
  induction h with
  | @bad last word words hbad =>
      simp only [Line.readCases]
      split
      · exact ⟨_, rfl⟩
      · next key target hword =>
        rw [if_pos (any_le_iff.2 (hbad key target hword))]
        exact ⟨_, rfl⟩
  | @next last word words key target cases hword hascends _ ih =>
      obtain ⟨p, hp⟩ := ih
      have hlast : ¬ last.any (key ≤ ·) = true := by
        rw [any_le_iff]
        rintro ⟨l, hl, hle⟩
        exact Int.not_lt.2 hle (hascends l hl)
      refine ⟨p, ?_⟩
      simp only [Line.readCases, hword, hp]
      rw [if_neg hlast]

theorem readLookup_append (words : List Text) (fallback : Text) :
    readLookup (words ++ [("default" : Text), fallback]) =
      match readCases none words with
      | (cases, none) =>
        .ofInstruction (.ok (.lookupSwitch (cases.map (·.1)) (cases.map fun c => some c.2)
          (some fallback)))
      | (cases, some p) => ⟨fallback :: cases.map (·.2), .error p⟩ := by
  have hreverse : (words ++ [("default" : Text), fallback]).reverse =
      fallback :: ("default" : Text) :: words.reverse := by
    simp
  unfold readLookup
  rw [hreverse]
  simp only [ne_eq, not_true_eq_false, if_false]
  rewrite [List.reverse_reverse]
  rcases readCases none words with ⟨cases, _ | p⟩ <;> rfl

theorem readLookup_of_casesStop (h : CasesStop none words cases) :
    ∃ p, readLookup (words ++ [("default" : Text), fallback]) =
      ⟨fallback :: cases.map (·.2), .error p⟩ := by
  obtain ⟨p, hp⟩ := h.readCases
  rw [readLookup_append, hp]
  exact ⟨p, rfl⟩

/-- A switch on keys that is rejected has met no label, or has a bad case. -/
theorem readLookup_rejected (h : (readLookup args).result = .error p) :
    (readLookup args).met = [] ∨ ∃ words fallback cases,
      args = words ++ [("default" : Text), fallback] ∧ CasesStop none words cases := by
  rcases hargs : args.reverse with _ | ⟨fallback, _ | ⟨mark, front⟩⟩
  · exact .inl (by simp only [readLookup, hargs, Reading.rejected])
  · exact .inl (by simp only [readLookup, hargs, Reading.rejected])
  · by_cases hmark : mark = "default"
    · have hwords : args = front.reverse ++ [("default" : Text), fallback] := by
        rw [← List.reverse_reverse args, hargs, hmark]
        simp
      rw [hwords, readLookup_append] at h
      rcases hcases : readCases none front.reverse with ⟨cases, _ | p'⟩
      · rw [hcases] at h
        cases h
      · exact .inr ⟨front.reverse, fallback, cases, hwords, casesStop_of_readCases hcases⟩
    · exact .inl (by simp only [readLookup, hargs, if_pos (show mark ≠ "default" from hmark),
        Reading.rejected])

theorem Misreads.read_eq (h : Misreads line cases fallback) :
    ∃ p, read line = ⟨fallback :: cases.map (·.2), .error p⟩ := by
  obtain ⟨op, rest, words, hnames, hform, hwords, hstop⟩ := h
  rw [hnames.read_eq, readInstruction, hform, hwords]
  exact readLookup_of_casesStop hstop

theorem Reading.met_ofInstruction (r : Except LineProblem (Instruction Text)) :
    (Reading.ofInstruction r).met = [] := by
  cases r <;> rfl

/-- What cannot be read has met no label, unless it is a switch with a bad case. -/
theorem met_eq_nil_of_error (h : (read line).result = .error p)
    (hline : ¬ ∃ cases fallback, Misreads line cases fallback) : (read line).met = [] := by
  rcases read_cases line with ⟨p', hread⟩ | ⟨name, hread⟩ | ⟨op, rest, hnames⟩
  · rw [hread]
    rfl
  · rw [hread] at h
    cases h
  · rw [hnames.read_eq] at h ⊢
    unfold readInstruction at h ⊢
    split at h
    · exact Reading.met_ofInstruction _
    · next hform =>
      rcases readLookup_rejected h with hnone | ⟨words, fallback, cases, hwords, hstop⟩
      · exact hnone
      · exact absurd ⟨cases, fallback, op, rest, words, hnames, hform, hwords, hstop⟩ hline
    · exact Reading.met_ofInstruction _

end Line

/-! ## Tables -/

namespace LabelTable

variable {t : LabelTable} {line : Text} {p : LineProblem} {name : Text}

/-- An accepted line enters what its element mentions and defines. -/
theorem enter_accepted {el : CodeElement} (h : (t.enter (Line.read line)).2 = .ok el) :
    t.enter (Line.read line) = (t.extend el.named, .ok el) := by
  rcases t.enter_cases line with ⟨el', -, -, henter⟩ | ⟨-, p, henter⟩
  · rw [henter] at h ⊢
    cases h
    rw [named_map_object]
  · cases henter.symm.trans h

/-- A line that is rejected leaves the table as it was, unless it is a switch with a bad case. -/
theorem enter_rejected (h : (t.enter (Line.read line)).2 = .error p)
    (hline : ¬ ∃ cases fallback, Line.Misreads line cases fallback) :
    t.enter (Line.read line) = (t, .error p) := by
  cases hresult : (Line.read line).result with
  | error p' =>
      rw [enter_of_error hresult] at h ⊢
      rw [Line.met_eq_nil_of_error hresult hline]
      cases h
      rfl
  | ok read =>
      cases read with
      | instruction ins =>
          rw [enter_of_instruction hresult] at h
          cases h
      | label name =>
          by_cases hmem : name ∈ t.defined
          · rw [enter_of_repeated hresult hmem] at h ⊢
            cases h
            rfl
          · rw [enter_of_new hresult hmem] at h
            cases h

theorem enter_misread {cases : List (Int × Text)} {fallback : Text}
    (h : Line.Misreads line cases fallback) (t : LabelTable) :
    ∃ p, t.enter (Line.read line) = (t.mention (fallback :: cases.map (·.2)), .error p) := by
  obtain ⟨p, hread⟩ := h.read_eq
  rw [hread]
  exact ⟨p, rfl⟩

theorem mem_enter_rejected (h : (t.enter (Line.read line)).2 = .error p) (name : Text) :
    (name ∈ (t.enter (Line.read line)).1.labels ↔ name ∈ t.labels ∨ Line.Leaves line name) ∧
      (t.enter (Line.read line)).1.defined = t.defined := by
  by_cases hline : ∃ cases fallback, Line.Misreads line cases fallback
  · obtain ⟨cases, fallback, hmisread⟩ := hline
    obtain ⟨p', henter⟩ := enter_misread hmisread t
    have hgrows := t.grows_mention (fallback :: cases.map (·.2))
    rw [henter]
    refine ⟨?_, hgrows.defined⟩
    rw [hgrows.mem]
    apply or_congr_right
    constructor
    · intro hname
      exact ⟨cases, fallback, hmisread, hname⟩
    · rintro ⟨cases', fallback', hmisread', hname⟩
      -- The line is read in one way only.
      obtain ⟨q, hq⟩ := hmisread.read_eq
      obtain ⟨q', hq'⟩ := hmisread'.read_eq
      rw [hq] at hq'
      rwa [(Line.Reading.mk.inj hq').1]
  · rw [enter_rejected h hline]
    refine ⟨?_, rfl⟩
    constructor
    · exact .inl
    · rintro (hname | ⟨cases, fallback, hmisread, -⟩)
      · exact hname
      · exact absurd ⟨cases, fallback, hmisread⟩ hline

end LabelTable

/-! ## Bodies -/

namespace CodeReading

variable {t : LabelTable} {lines : List Text} {name : Text}

/-- The table at the end of a body holds what was in it, what accepted lines mention or define and
what rejected lines leave. -/
theorem mem_labels_readFrom (t : LabelTable) (index : Nat) (lines : List Text) (name : Text) :
    (name ∈ (readFrom t index lines).labels.labels ↔
        name ∈ t.labels ∨
          (∃ l ∈ (readFrom t index lines).lines, name ∈ l.element.named.mentions) ∨
          ∃ b ∈ (readFrom t index lines).bad, Line.Leaves b.text name) ∧
      (name ∈ (readFrom t index lines).labels.defined ↔
        name ∈ t.defined ∨
          ∃ l ∈ (readFrom t index lines).lines, l.element.named = .label name) := by
  induction lines generalizing t index with
  | nil => simp [readFrom]
  | cons line rest ih =>
      cases hresult : (t.enter (Line.read line)).2 with
      | ok el =>
          rw [readFrom_cons_ok index (LabelTable.enter_accepted hresult)]
          obtain ⟨hmentioned, hdefined⟩ := ih (t.extend el.named) (index + 1)
          constructor
          · rw [hmentioned, LabelTable.mem_labels_extend]
            simp only [List.exists_mem_cons_iff, or_assoc]
          · have hdefines : name ∈ el.named.defines?.toList ↔ el.named = .label name := by
              cases el.named <;> simp [CodeElement.defines?, eq_comm]
            rw [hdefined, LabelTable.extend, List.mem_append, hdefines]
            simp only [List.exists_mem_cons_iff, or_assoc]
      | error p =>
          obtain ⟨hentered, hkept⟩ := LabelTable.mem_enter_rejected hresult name
          rw [readFrom_cons_error index (Prod.ext rfl hresult)]
          obtain ⟨hmentioned, hdefined⟩ := ih (t.enter (Line.read line)).1 (index + 1)
          constructor
          · rw [hmentioned, hentered]
            simp only [List.exists_mem_cons_iff]
            rw [or_assoc, or_left_comm (a := Line.Leaves line name)]
          · rw [hdefined, hkept]

/-- Labels are never defined if accepted lines go to them or rejected lines leave them, and no
accepted line defines them. -/
theorem mem_undefined_read_iff :
    name ∈ (read lines).labels.undefined ↔
      ((∃ l ∈ (read lines).lines, ∃ ins, l.element = .instruction ins ∧
            name ∈ ins.targets.map (·.name)) ∨
          ∃ b ∈ (read lines).bad, Line.Leaves b.text name) ∧
        ∀ l ∈ (read lines).lines, ∀ label, l.element = .label label → label.name ≠ name := by
  obtain ⟨hmentioned, hdefined⟩ := mem_labels_readFrom {} 0 lines name
  simp only [List.not_mem_nil, false_or] at hmentioned hdefined
  rw [LabelTable.mem_undefined_iff, read, hmentioned, hdefined]
  constructor
  · rintro ⟨hname, hnew⟩
    have hfree : ∀ l ∈ (readFrom {} 0 lines).lines, ∀ label, l.element = .label label →
        label.name ≠ name := by
      rintro l hl label hlabel rfl
      exact hnew ⟨l, hl, by rw [hlabel]; rfl⟩
    refine ⟨?_, hfree⟩
    apply hname.imp_left
    rintro ⟨l, hl, hmem⟩
    refine ⟨l, hl, ?_⟩
    cases hel : l.element with
    | instruction ins =>
        rw [hel, CodeElement.named, CodeElement.mentions_map] at hmem
        exact ⟨ins, rfl, hmem⟩
    | label label =>
        have hsame : name = label.name := by
          rw [hel, CodeElement.named, CodeElement.mentions_map] at hmem
          simpa [CodeElement.mentions, CodeElement.defines?, CodeElement.targets] using hmem
        exact absurd hsame.symm (hfree l hl label hel)
  · rintro ⟨hname, hfree⟩
    refine ⟨?_, ?_⟩
    · apply hname.imp_left
      rintro ⟨l, hl, ins, hins, hmem⟩
      refine ⟨l, hl, ?_⟩
      rw [hins, CodeElement.named, CodeElement.mentions_map]
      exact hmem
    · rintro ⟨l, hl, hlabel⟩
      cases hel : l.element with
      | instruction ins =>
          rw [hel] at hlabel
          cases hlabel
      | label label =>
          rw [hel] at hlabel
          cases hlabel
          exact hfree l hl label hel rfl

end CodeReading

/-! ## Listings -/

theorem MethodEntry.mem_issues_label_iff {e : MethodEntry} {owner method : Text} {index : Nat}
    {name : Text} :
    .label method name ∈ e.issues owner index ↔
      e.name ≠ [] ∧ e.descriptor ≠ [] ∧ (e.read owner).toText = method ∧
        name ∈ (CodeReading.read (e.code.getD [])).labels.undefined := by
  unfold issues
  split
  · next hname =>
    simp [List.isEmpty_iff.1 hname]
  · next hname =>
    split
    · next hdesc => simp [List.isEmpty_iff.1 hdesc]
    · next hdesc =>
      rw [List.isEmpty_iff] at hname hdesc
      simp [codeIssues, hname, hdesc, and_comm]

theorem Document.mem_issues_label_iff {d : Document} {method : Text} {name : Text} :
    .label method name ∈ d.issues ↔
      ∃ e ∈ d.methods, e.name ≠ [] ∧ e.descriptor ≠ [] ∧ (e.read d.owner).toText = method ∧
        name ∈ (CodeReading.read (e.code.getD [])).labels.undefined := by
  unfold issues
  rw [List.mem_flatMap]
  simp only [MethodEntry.mem_issues_label_iff]
  constructor
  · rintro ⟨⟨e, index⟩, he, hissue⟩
    exact ⟨e, List.fst_mem_of_mem_zipIdx he, hissue⟩
  · rintro ⟨e, he, hissue⟩
    obtain ⟨i, hi, rfl⟩ := List.getElem_of_mem he
    exact ⟨(d.methods[i], i), by simp [List.mem_zipIdx_iff_getElem?, hi], hissue⟩

/-! ## Main results -/

/-- A line that is rejected leaves the labels as they were, unless it is a switch on keys with a bad
case. Then the labels that have been made are the one at its end and those of the cases in front of
the bad one. What a body or a listing reports as never defined is what accepted lines go to and what
such switches have left, less what accepted lines define. -/
theorem rejected_lines_leave_labels_of_switches (met : LabelTable) (line : Text)
    (lines : List Text) (d : Document) (name : Text) :
    (∀ p : LineProblem,
      (met.enter (Line.read line)).2 = .error p →
        (¬ ∃ cases fallback, Line.Misreads line cases fallback) →
        (met.enter (Line.read line)).1 = met) ∧
    (∀ (cases : List (Int × Text)) (fallback : Text),
      Line.Misreads line cases fallback →
        met.Grows (fallback :: cases.map (·.2)) (met.enter (Line.read line)).1 ∧
          ∃ p, met.enter (Line.read line) =
            (met.mention (fallback :: cases.map (·.2)), .error p)) ∧
    (name ∈ (CodeReading.read lines).labels.undefined ↔
        ((∃ l ∈ (CodeReading.read lines).lines, ∃ ins,
              l.element = .instruction ins ∧ name ∈ ins.targets.map (·.name)) ∨
            ∃ b ∈ (CodeReading.read lines).bad, Line.Leaves b.text name) ∧
          ∀ l ∈ (CodeReading.read lines).lines, ∀ label, l.element = .label label →
            label.name ≠ name) ∧
    ∀ method : Text, .label method name ∈ d.issues ↔
      ∃ e ∈ d.methods, e.name ≠ [] ∧ e.descriptor ≠ [] ∧ (e.read d.owner).toText = method ∧
        name ∈ (CodeReading.read (e.code.getD [])).labels.undefined := by
  refine ⟨?_, ?_, CodeReading.mem_undefined_read_iff,
    fun method => Document.mem_issues_label_iff⟩
  · intro p h hline
    rw [LabelTable.enter_rejected h hline]
  · intro cases fallback h
    obtain ⟨p, henter⟩ := LabelTable.enter_misread h met
    refine ⟨?_, p, henter⟩
    rw [henter]
    exact met.grows_mention _

/-- A table switch that lacks a label leaves nothing. A switch on keys whose second key does not
ascend leaves two labels, and its third case is not read. -/
theorem rejected_lines_leave_labels_of_switches_both :
    let met : LabelTable := ⟨["X", "Y"], ["X"]⟩
    (∃ p, (met.enter (Line.read "tableswitch 1 2 A default D")).2 = .error p) ∧
      (met.enter (Line.read "tableswitch 1 2 A default D")).1 = met ∧
      ∃ p, met.enter (Line.read "lookupswitch 1:A 1:B 2:C default D") =
        (⟨["X", "Y", "D", "A"], ["X"]⟩, .error p) := by
  intro met
  have hrefused : (met.enter (Line.read "tableswitch 1 2 A default D")).2.isOk = false := by
    decide +kernel
  obtain ⟨p, hp⟩ : ∃ p, (met.enter (Line.read "tableswitch 1 2 A default D")).2 = .error p := by
    cases hresult : (met.enter (Line.read "tableswitch 1 2 A default D")).2 with
    | error p => exact ⟨p, rfl⟩
    | ok el =>
        rw [hresult] at hrefused
        cases hrefused
  refine ⟨⟨p, hp⟩, ?_, ?_⟩
  · apply (rejected_lines_leave_labels_of_switches met _ [] ⟨"T", []⟩ "X").1 p hp
    have htable : Line.Names "tableswitch 1 2 A default D" .tableswitch "1 2 A default D" :=
      ⟨by decide +kernel, "tableswitch", ["1", "2", "A", "default", "D"], by decide +kernel,
        by decide +kernel, by decide +kernel⟩
    rintro ⟨cases, fallback, op, rest, words, hnames, hform, -⟩
    obtain ⟨rfl, -⟩ := hnames.unique htable
    exact absurd hform (by decide +kernel)
  · have hkeys : Line.Names "lookupswitch 1:A 1:B 2:C default D" .lookupswitch
        "1:A 1:B 2:C default D" :=
      ⟨by decide +kernel, "lookupswitch", ["1:A", "1:B", "2:C", "default", "D"],
        by decide +kernel, by decide +kernel, by decide +kernel⟩
    have hfirst : Line.readCase? "1:A" = some ((1 : Int), ("A" : Text)) := by decide +kernel
    have hsecond : Line.readCase? "1:B" = some ((1 : Int), ("B" : Text)) := by decide +kernel
    have hstop : Line.CasesStop none ["1:A", "1:B", "2:C"] [(1, "A")] := by
      apply Line.CasesStop.next hfirst (by simp)
      apply Line.CasesStop.bad
      intro key target hcase
      cases hsecond.symm.trans hcase
      exact ⟨1, rfl, Int.le_refl 1⟩
    exact ((rejected_lines_leave_labels_of_switches met _ [] ⟨"T", []⟩ "X").2.1 [(1, "A")] "D"
      ⟨_, _, _, hkeys, by decide +kernel, by decide +kernel, hstop⟩).2

/-- The only line of a body is rejected. It has put two labels into the table, and they are never
defined. -/
theorem rejected_switch_leaves_labels :
    CodeReading.read ["lookupswitch 1:A 1:B default D"] =
        ⟨[], [⟨0, "lookupswitch 1:A 1:B default D", .lookupOrder 1⟩], ⟨["D", "A"], []⟩⟩ ∧
      ∀ name ∈ (["A", "D"] : List Text),
        name ∈ (CodeReading.read ["lookupswitch 1:A 1:B default D"]).labels.undefined := by
  have hread : CodeReading.read ["lookupswitch 1:A 1:B default D"] =
      ⟨[], [⟨0, "lookupswitch 1:A 1:B default D", .lookupOrder 1⟩], ⟨["D", "A"], []⟩⟩ := by
    decide +kernel
  refine ⟨hread, ?_⟩
  simp only [hread, LabelTable.mem_undefined_iff]
  decide

end OperandStack
