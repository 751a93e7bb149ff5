import Mathlib.Data.List.Forall2
import OperandStack.Listing.Class
import OperandStack.Proofs.Labels

/-!
# Acceptance of listings

Lines of code are read one after the other, with a table of the labels met so far, and labels that
are nowhere defined come out at the end. Which listings are accepted can be said without the table:
each line can be read on its own, no two lines define one label, and what jumps and switches name
is defined somewhere in the same body.

`Document.check_reads_listing` says that nothing else is checked, that an accepted listing is read
line by line as it is written, and that a jump goes to the very label that a line defines.
-/

namespace OperandStack

namespace Line

/-- What becomes of a line if no labels have been met, with names for its labels. -/
def decode (line : Text) : Except LineProblem (CodeElement Text) :=
  (LabelTable.enter {} (read line)).2.map CodeElement.named

def defines? (line : Text) : Option Text := (decode line).toOption.bind CodeElement.defines?

def targets (line : Text) : List Text := ((decode line).toOption.map CodeElement.targets).getD []

theorem decode_eq_result (line : Text) : decode line = (read line).result := by
  unfold decode
  rcases hresult : (read line).result with p | (ins | name)
  · rw [LabelTable.enter_of_error hresult]
    rfl
  · rw [LabelTable.enter_of_instruction hresult]
    exact congrArg Except.ok (LabelTable.named_map_object _ (.instruction ins))
  · rw [LabelTable.enter_of_new hresult (by simp)]
    rfl

theorem mentions_of_decode {line : Text} {el : CodeElement Text} (h : decode line = .ok el) :
    el.mentions = (defines? line).toList ++ targets line := by
  simp only [defines?, targets, h, Except.toOption, Option.bind_some, Option.map_some,
    Option.getD_some]
  rfl

/-! ## Kinds of lines -/

/-- The line names an operation, with the given text behind its mnemonic. -/
structure Names (line : Text) (op : Opcode) (rest : Text) : Prop where
  defines : isDefinition (Text.trim line) = false
  mnemonic : ∃ word words, Text.fields (Text.trim line) = word :: words ∧
    Opcode.ofMnemonic? (lowerMnemonic word) = some op ∧
    rest = Text.trim ((Text.trim line).drop word.length)

theorem Names.read_eq {line rest : Text} {op : Opcode} (h : Names line op rest) :
    read line = readInstruction op rest := by
  obtain ⟨word, words, hfields, hop, rfl⟩ := h.mnemonic
  rw [read, readTrimmed, h.defines, hfields]
  simp only [Bool.false_eq_true, if_false, hop]

theorem Names.unique {line rest rest' : Text} {op op' : Opcode} (h : Names line op rest)
    (h' : Names line op' rest') : op = op' ∧ rest = rest' := by
  obtain ⟨word, words, hfields, hop, rfl⟩ := h.mnemonic
  obtain ⟨word', words', hfields', hop', rfl⟩ := h'.mnemonic
  obtain ⟨rfl, -⟩ := List.cons.inj (hfields.symm.trans hfields')
  exact ⟨Option.some.inj (hop.symm.trans hop'), rfl⟩

/-- A line is rejected at once, defines a label or names an operation. -/
theorem read_cases (line : Text) :
    (∃ p, read line = .rejected p) ∨ (∃ name, read line = .ofLabel name) ∨
      ∃ op rest, Names line op rest := by
  unfold read readTrimmed
  split
  · split
    · exact .inl ⟨_, rfl⟩
    · exact .inr (.inl ⟨_, rfl⟩)
  · next hdefines =>
    split
    · exact .inl ⟨_, rfl⟩
    · next word words hfields =>
      split
      · next op hop =>
        exact .inr (.inr ⟨op, _, Bool.eq_false_iff.2 hdefines, word, words, hfields, hop, rfl⟩)
      · exact .inl ⟨_, rfl⟩

end Line

/-! ## Bodies -/

namespace LabelTable

/-- The table once a line has been accepted that is decoded as `el`. -/
def extend (t : LabelTable) (el : CodeElement Text) : LabelTable :=
  { t.mention el.mentions with defined := t.defined ++ el.defines?.toList }

theorem extend_instruction (t : LabelTable) (ins : Instruction Text) :
    t.extend (.instruction ins) = t.mention ins.targets := by
  have hdefined := (t.grows_mention ins.targets).defined
  simp only [extend, CodeElement.mentions, CodeElement.defines?, CodeElement.targets,
    Option.toList_none, List.nil_append, List.append_nil]
  rw [← hdefined]

theorem mem_labels_extend {t : LabelTable} {el : CodeElement Text} {name : Text} :
    name ∈ (t.extend el).labels ↔ name ∈ t.labels ∨ name ∈ el.mentions :=
  (t.grows_mention el.mentions).mem name

/-- A line is entered as it is decoded, unless it defines a label once more. -/
theorem enter_cases (t : LabelTable) (line : Text) :
    (∃ el, Line.decode line = .ok el ∧ (∀ name, Line.defines? line = some name → name ∉ t.defined) ∧
        t.enter (Line.read line) = (t.extend el, .ok (el.map (t.extend el).object))) ∨
      ((Line.decode line).isOk = false ∨ ∃ name ∈ t.defined, Line.defines? line = some name) ∧
        ∃ p, (t.enter (Line.read line)).2 = .error p := by
  unfold Line.defines?
  rw [Line.decode_eq_result]
  rcases hresult : (Line.read line).result with p | (ins | name)
  · exact .inr ⟨.inl rfl, p, by rw [enter_of_error hresult]⟩
  · refine .inl ⟨.instruction ins, rfl, by rintro name ⟨⟩, ?_⟩
    rw [enter_of_instruction hresult, extend_instruction]
    rfl
  · by_cases hmem : name ∈ t.defined
    · exact .inr ⟨.inr ⟨name, hmem, rfl⟩, _, by rw [enter_of_repeated hresult hmem]⟩
    · refine .inl ⟨.label name, rfl, ?_, enter_of_new hresult hmem⟩
      rintro other ⟨⟩
      exact hmem

/-- Whether or not it is accepted, a line takes no label away. -/
theorem exists_labels_enter (t : LabelTable) (r : Line.Reading) :
    ∃ added, (t.enter r).1.labels = t.labels ++ added := by
  rcases hresult : r.result with p | (ins | name)
  · rw [enter_of_error hresult]
    exact (t.grows_mention r.met).labels
  · rw [enter_of_instruction hresult]
    exact (t.grows_mention ins.targets).labels
  · by_cases hmem : name ∈ t.defined
    · rw [enter_of_repeated hresult hmem]
      exact ⟨[], (List.append_nil _).symm⟩
    · rw [enter_of_new hresult hmem]
      exact (t.grows_mention [name]).labels

theorem mem_undefined_iff {t : LabelTable} {name : Text} :
    name ∈ t.undefined ↔ name ∈ t.labels ∧ name ∉ t.defined := by
  simp [undefined, List.mem_mergeSort]

theorem undefined_eq_nil_iff (t : LabelTable) :
    t.undefined = [] ↔ ∀ name ∈ t.labels, name ∈ t.defined := by
  rw [List.eq_nil_iff_forall_not_mem]
  simp [mem_undefined_iff]

end LabelTable

structure CodeAcceptable (lines : List Text) : Prop where
  decoded : ∀ line ∈ lines, (Line.decode line).isOk
  /-- No two lines define one label. -/
  once : lines.Pairwise fun a b => (Line.defines? a).isSome → Line.defines? a ≠ Line.defines? b
  resolved : ∀ line ∈ lines, ∀ name ∈ Line.targets line,
    ∃ definition ∈ lines, Line.defines? definition = some name

instance (lines : List Text) : Decidable (CodeAcceptable lines) :=
  decidable_of_iff (_ ∧ _ ∧ _)
    ⟨fun h => ⟨h.1, h.2.1, h.2.2⟩, fun h => ⟨h.decoded, h.once, h.resolved⟩⟩

/-- The element that a line has been read as, but for the numbers of its labels. -/
def CodeLine.Reads (line : Text) (l : CodeLine) : Prop :=
  Line.decode line = .ok l.element.named ∧ l.text = Text.trim line

namespace CodeReading

variable {t : LabelTable} {line : Text} {rest : List Text}

theorem readFrom_cons_ok {t' : LabelTable} {el : CodeElement} (index : Nat)
    (h : t.enter (Line.read line) = (t', .ok el)) :
    readFrom t index (line :: rest) =
      { readFrom t' (index + 1) rest with
        lines := ⟨el, Text.trim line⟩ :: (readFrom t' (index + 1) rest).lines } := by
  simp only [readFrom, h]

theorem readFrom_cons_error {t' : LabelTable} {p : LineProblem} (index : Nat)
    (h : t.enter (Line.read line) = (t', .error p)) :
    readFrom t index (line :: rest) =
      { readFrom t' (index + 1) rest with
        bad := ⟨index, line, p⟩ :: (readFrom t' (index + 1) rest).bad } := by
  simp only [readFrom, h]

theorem readFrom_bad_ne_nil {p : LineProblem} (index : Nat)
    (h : (t.enter (Line.read line)).2 = .error p) :
    (readFrom t index (line :: rest)).bad ≠ [] := by
  rw [readFrom_cons_error index (Prod.ext rfl h)]
  exact List.cons_ne_nil _ _

theorem definitions_cons (line : Text) (rest : List Text) :
    (line :: rest).filterMap Line.defines? =
      (Line.defines? line).toList ++ rest.filterMap Line.defines? := by
  rw [List.filterMap_cons]
  cases Line.defines? line <;> rfl

/-- Nothing is rejected if each line can be read and defines a label that is new, compared both
with the table and with the other lines. -/
theorem readFrom_bad_eq_nil_iff (t : LabelTable) (index : Nat) (lines : List Text)
    (ht : t.defined.Nodup) :
    (readFrom t index lines).bad = [] ↔
      (∀ line ∈ lines, (Line.decode line).isOk) ∧
        (t.defined ++ lines.filterMap Line.defines?).Nodup := by
  induction lines generalizing t index with
  | nil => simpa [readFrom] using ht
  | cons line rest ih =>
      rw [List.forall_mem_cons, definitions_cons, ← List.append_assoc]
      rcases t.enter_cases line with ⟨el, hdecode, hnew, henter⟩ | ⟨hbad, p, henter⟩
      · have hdefines : el.defines? = Line.defines? line := by
          simp [Line.defines?, hdecode, Except.toOption]
        have ht' : (t.extend el).defined.Nodup := by
          rw [LabelTable.extend, hdefines]
          cases hdef : Line.defines? line with
          | none => simpa using ht
          | some name =>
              refine List.nodup_append.2 ⟨ht, by simp, ?_⟩
              rintro a ha b hb rfl
              rw [Option.toList_some, List.mem_singleton] at hb
              exact hnew name hdef (hb ▸ ha)
        have hok : (Line.decode line).isOk := by rw [hdecode]; rfl
        rw [readFrom_cons_ok index henter, ih _ (index + 1) ht']
        simp [hok, LabelTable.extend, hdefines]
      · refine iff_of_false (readFrom_bad_ne_nil index henter) ?_
        rintro ⟨⟨hok, -⟩, hnodup⟩
        rcases hbad with herror | ⟨name, hmem, hdef⟩
        · rw [herror] at hok
          cases hok
        · rw [hdef, Option.toList_some] at hnodup
          obtain ⟨-, -, hdistinct⟩ := List.nodup_append.1 (List.nodup_append.1 hnodup).1
          exact hdistinct name hmem name (by simp) rfl

theorem readFrom_of_bad_eq_nil {index : Nat} {lines : List Text}
    (h : (readFrom t index lines).bad = []) :
    List.Forall₂ CodeLine.Reads lines (readFrom t index lines).lines ∧
      (∀ name, name ∈ (readFrom t index lines).labels.labels ↔ name ∈ t.labels ∨
        ∃ line ∈ lines, Line.defines? line = some name ∨ name ∈ Line.targets line) ∧
      (readFrom t index lines).labels.defined = t.defined ++ lines.filterMap Line.defines? := by
  induction lines generalizing t index with
  | nil => exact ⟨.nil, by simp [readFrom], by simp [readFrom]⟩
  | cons line rest ih =>
      rcases t.enter_cases line with ⟨el, hdecode, -, henter⟩ | ⟨-, p, henter⟩
      · rw [readFrom_cons_ok index henter] at h ⊢
        obtain ⟨hlines, hlabels, hdefined⟩ := ih h
        have hdefines : el.defines? = Line.defines? line := by
          simp [Line.defines?, hdecode, Except.toOption]
        refine ⟨.cons ⟨?_, rfl⟩ hlines, fun name => ?_, ?_⟩
        · rw [hdecode, LabelTable.named_map_object]
        · rw [hlabels, LabelTable.mem_labels_extend, Line.mentions_of_decode hdecode,
            List.mem_append, Option.mem_toList]
          simp only [List.exists_mem_cons_iff, or_assoc]
        · rw [hdefined, definitions_cons, LabelTable.extend, hdefines, List.append_assoc]
      · exact absurd h (readFrom_bad_ne_nil index henter)

/-- Labels are resolved if the targets of jumps and switches are defined. -/
theorem undefined_eq_nil_iff {lines : List Text} (hbad : (read lines).bad = []) :
    (read lines).labels.undefined = [] ↔
      ∀ line ∈ lines, ∀ name ∈ Line.targets line,
        ∃ definition ∈ lines, Line.defines? definition = some name := by
  obtain ⟨-, hlabels, hdefined⟩ := readFrom_of_bad_eq_nil hbad
  rw [LabelTable.undefined_eq_nil_iff, read, hdefined]
  simp only [hlabels, List.nil_append, List.mem_filterMap, List.not_mem_nil, false_or]
  constructor
  · intro h line hline name hname
    exact h name ⟨line, hline, .inr hname⟩
  · rintro h name ⟨line, hline, hdefines | htarget⟩
    · exact ⟨line, hline, hdefines⟩
    · exact h line hline name htarget

theorem nodup_definitions_iff {lines : List Text} :
    (lines.filterMap Line.defines?).Nodup ↔
      lines.Pairwise fun a b => (Line.defines? a).isSome → Line.defines? a ≠ Line.defines? b := by
  rw [List.Nodup, List.pairwise_filterMap]
  refine List.Pairwise.iff fun a b => ?_
  cases Line.defines? a with
  | none => simp
  | some name => cases Line.defines? b <;> simp

theorem accepts_iff (lines : List Text) :
    (read lines).bad = [] ∧ (read lines).labels.undefined = [] ↔ CodeAcceptable lines := by
  have hbad : (read lines).bad = [] ↔ _ := readFrom_bad_eq_nil_iff {} 0 lines (by simp)
  rw [List.nil_append, nodup_definitions_iff] at hbad
  constructor
  · rintro ⟨hnil, hundefined⟩
    obtain ⟨hdecoded, honce⟩ := hbad.1 hnil
    exact ⟨hdecoded, honce, (undefined_eq_nil_iff hnil).1 hundefined⟩
  · rintro ⟨hdecoded, honce, hresolved⟩
    have hnil := hbad.2 ⟨hdecoded, honce⟩
    exact ⟨hnil, (undefined_eq_nil_iff hnil).2 hresolved⟩

/-! ### Elements of accepted bodies -/

theorem exists_line_of_mem {lines : List Text} {body : List CodeLine}
    (h : List.Forall₂ CodeLine.Reads lines body) {l : CodeLine} (hl : l ∈ body) :
    ∃ line ∈ lines, CodeLine.Reads line l := by
  induction h with
  | nil => cases hl
  | @cons line l' _ _ hreads _ ih =>
      rcases List.mem_cons.1 hl with rfl | hl
      · exact ⟨line, by simp, hreads⟩
      · obtain ⟨line', hline, hreads⟩ := ih hl
        exact ⟨line', List.mem_cons_of_mem _ hline, hreads⟩

theorem exists_labels_readFrom (t : LabelTable) (index : Nat) (lines : List Text) :
    ∃ added, (readFrom t index lines).labels.labels = t.labels ++ added := by
  induction lines generalizing t index with
  | nil => exact ⟨[], (List.append_nil _).symm⟩
  | cons line rest ih =>
      obtain ⟨first, hfirst⟩ := t.exists_labels_enter (Line.read line)
      obtain ⟨others, hothers⟩ := ih (t.enter (Line.read line)).1 (index + 1)
      have hlabels : (readFrom t index (line :: rest)).labels =
          (readFrom (t.enter (Line.read line)).1 (index + 1) rest).labels := by
        rcases henter : t.enter (Line.read line) with ⟨t', p | el⟩
        · rw [readFrom_cons_error index henter]
        · rw [readFrom_cons_ok index henter]
      refine ⟨first ++ others, ?_⟩
      rw [hlabels, hothers, hfirst, List.append_assoc]

/-- Whatever else is read, the elements of a body have their labels from one table. -/
theorem provides_readFrom {t : LabelTable} {index : Nat} {lines : List Text} {l : CodeLine}
    (h : l ∈ (readFrom t index lines).lines) :
    (readFrom t index lines).labels.Provides l.element := by
  induction lines generalizing t index with
  | nil => cases h
  | cons line rest ih =>
      rcases t.enter_cases line with ⟨el, -, -, henter⟩ | ⟨-, p, henter⟩
      · rw [readFrom_cons_ok index henter] at h ⊢
        rcases List.mem_cons.1 h with rfl | h
        · obtain ⟨added, hadded⟩ := exists_labels_readFrom (t.extend el) (index + 1) rest
          have hnames : ∀ name ∈ el.mentions, name ∈ (t.extend el).labels :=
            fun name hname => LabelTable.mem_labels_extend.2 (.inr hname)
          exact (LabelTable.provides_map hnames).of_append hadded
        · exact ih h
      · rw [readFrom_cons_error index (Prod.ext rfl henter)] at h ⊢
        exact ih h

/-- A label is defined as often among the elements as its name is among the lines. -/
theorem count_label {lines : List Text} {body : List CodeLine}
    (h : List.Forall₂ CodeLine.Reads lines body) (hbody : ∀ l ∈ body, t.Provides l.element)
    (name : Text) :
    body.countP (fun l => l.element = .label (t.object name)) =
      (lines.filterMap Line.defines?).count name := by
  induction h with
  | nil => rfl
  | @cons line l lines body hreads _ ih =>
      obtain ⟨hl, hrest⟩ := List.forall_mem_cons.1 hbody
      rw [definitions_cons, List.count_append, List.countP_cons, ih hrest, Nat.add_comm]
      congr 1
      obtain ⟨hdecode, -⟩ := hreads
      have hsame : l.element = .label (t.object name) ↔ l.element.named = .label name := by
        constructor
        · intro hlabel
          rw [hlabel]
          rfl
        · intro hnamed
          rw [← hl.objects, hnamed]
          rfl
      simp only [Line.defines?, hdecode, Except.toOption, Option.bind_some, hsame]
      cases l.element.named with
      | instruction ins => simp [CodeElement.defines?]
      | label other => simp [CodeElement.defines?, List.count_singleton]

/-- In an accepted body each label that is gone to is defined by exactly one element. -/
theorem count_label_eq_one {lines : List Text} {body : List CodeLine}
    (haccepted : CodeAcceptable lines) (h : List.Forall₂ CodeLine.Reads lines body)
    (hbody : ∀ l ∈ body, t.Provides l.element) {l : CodeLine} (hl : l ∈ body) {ins : Instruction}
    (hins : l.element = .instruction ins) {label : Label} (hlabel : label ∈ ins.targets) :
    body.countP (fun l => l.element = .label label) = 1 := by
  have hmentioned : label ∈ l.element.mentions := by
    rw [hins]
    exact hlabel
  obtain ⟨name, -, rfl⟩ := (hbody l hl).exists_name hmentioned
  rw [count_label h hbody, List.Nodup.count (nodup_definitions_iff.2 haccepted.once), if_pos]
  obtain ⟨line, hline, hdecode, -⟩ := exists_line_of_mem h hl
  have htarget : name ∈ Line.targets line := by
    rw [Line.targets, hdecode, hins]
    change name ∈ (ins.map Label.name).targets
    rw [Instruction.targets_map]
    exact List.mem_map.2 ⟨_, hlabel, rfl⟩
  obtain ⟨definition, hmem, hdef⟩ := haccepted.resolved line hline name htarget
  exact List.mem_filterMap.2 ⟨definition, hmem, hdef⟩

end CodeReading

/-! ## Methods -/

theorem Access.testBit_foldl_union (flags : List Access) (start : Access) (i : Nat) :
    (flags.foldl Access.union start).bits.toNat.testBit i ↔
      start.bits.toNat.testBit i ∨ ∃ flag ∈ flags, flag.bits.toNat.testBit i := by
  induction flags generalizing start with
  | nil => simp
  | cons flag flags ih =>
      rw [List.foldl_cons, ih]
      simp [union, UInt16.toNat_or, or_assoc]

namespace MethodEntry

structure Acceptable (e : MethodEntry) : Prop where
  name : e.name ≠ []
  descriptor : e.descriptor ≠ []
  access : ∀ word ∈ e.access, (Access.ofKeyword? word).isSome
  code : ∀ lines ∈ e.code, CodeAcceptable lines

instance (e : MethodEntry) : Decidable e.Acceptable :=
  decidable_of_iff (_ ∧ _ ∧ _ ∧ _)
    ⟨fun h => ⟨h.1, h.2.1, h.2.2.1, h.2.2.2⟩, fun h => ⟨h.name, h.descriptor, h.access, h.code⟩⟩

/-- A method says what its entry says. -/
structure ReadAs (owner : Text) (e : MethodEntry) (m : ListedMethod) : Prop where
  declaration : m.owner = owner ∧ m.name = e.name ∧ m.descriptor = e.descriptor ∧
    m.signature = e.signature ∧ m.exceptions = e.exceptions ∧ m.parameters = e.parameters
  access : ∀ i, m.access.bits.toNat.testBit i ↔
    ∃ word ∈ e.access, ∃ flag, Access.ofKeyword? word = some flag ∧ flag.bits.toNat.testBit i
  hasCode : m.hasCode = e.code.isSome
  /-- There is one element for each line, which is what the line is decoded as on its own. -/
  elements : (m.lines.map fun l => .ok l.element.named) = (e.code.getD []).map Line.decode
  text : ∀ i : Nat, m.line i = ((e.code.getD [])[i]?.map Text.trim).getD []
  /-- What a jump or a switch goes to is the very label that one of the elements defines. -/
  labels : ∀ l ∈ m.lines, ∀ ins, l.element = .instruction ins → ∀ label ∈ ins.targets,
    m.lines.countP (fun l => l.element = .label label) = 1
  /-- Labels of the method are the same if they have the same name, and only then. -/
  objects : ∀ l ∈ m.lines, ∀ label ∈ l.element.mentions, ∀ l' ∈ m.lines,
    ∀ label' ∈ l'.element.mentions, label.number = label'.number ↔ label.name = label'.name

theorem issues_eq_nil_iff (e : MethodEntry) (owner : Text) (index : Nat) :
    e.issues owner index = [] ↔ e.Acceptable := by
  have hcode : codeIssues (e.read owner).toText (e.code.getD []) = [] ↔
      ∀ lines ∈ e.code, CodeAcceptable lines := by
    rw [codeIssues, List.append_eq_nil_iff, List.map_eq_nil_iff, List.map_eq_nil_iff,
      CodeReading.accepts_iff]
    cases e.code with
    | some lines => simp
    | none => simp [CodeAcceptable.mk]
  unfold issues
  split
  · next hname =>
    refine iff_of_false (by simp) fun h => h.name ?_
    simpa using hname
  · next hname =>
    split
    · next hdesc =>
      refine iff_of_false (by simp) fun h => h.descriptor ?_
      simpa using hdesc
    · next hdesc =>
      rw [List.append_eq_nil_iff, List.map_eq_nil_iff, List.filter_eq_nil_iff, hcode]
      constructor
      · rintro ⟨haccess, hlines⟩
        refine ⟨by simpa using hname, by simpa using hdesc, ?_, hlines⟩
        simpa [Option.isSome_iff_ne_none] using haccess
      · intro h
        refine ⟨?_, h.code⟩
        simpa [Option.isSome_iff_ne_none] using h.access

theorem Acceptable.reads {e : MethodEntry} (h : e.Acceptable) (owner : Text) :
    List.Forall₂ CodeLine.Reads (e.code.getD []) (e.read owner).lines := by
  unfold ListedMethod.lines MethodEntry.read
  cases hcode : e.code with
  | none => exact .nil
  | some lines =>
      have haccepted := (CodeReading.accepts_iff lines).2 (h.code lines hcode)
      exact (CodeReading.readFrom_of_bad_eq_nil haccepted.1).1

theorem exists_provides (e : MethodEntry) (owner : Text) :
    ∃ t : LabelTable, ∀ l ∈ (e.read owner).lines, t.Provides l.element := by
  unfold ListedMethod.lines MethodEntry.read
  cases e.code with
  | none => exact ⟨{}, List.forall_mem_nil _⟩
  | some lines => exact ⟨_, fun l hl => CodeReading.provides_readFrom hl⟩

theorem Acceptable.readAs {e : MethodEntry} (h : e.Acceptable) (owner : Text) :
    e.ReadAs owner (e.read owner) := by
  have hreads := h.reads owner
  obtain ⟨t, hprovides⟩ := e.exists_provides owner
  have helements : (e.code.getD []).map Line.decode =
      (e.read owner).lines.map fun l => .ok l.element.named := by
    rw [← List.forall₂_eq_eq_eq, List.forall₂_map_left_iff, List.forall₂_map_right_iff]
    exact hreads.imp fun _ _ hline => hline.1
  have htexts : (e.code.getD []).map Text.trim = (e.read owner).lines.map (·.text) := by
    rw [← List.forall₂_eq_eq_eq, List.forall₂_map_left_iff, List.forall₂_map_right_iff]
    exact hreads.imp fun _ _ hline => hline.2.symm
  refine ⟨⟨rfl, rfl, rfl, rfl, rfl, rfl⟩, ?_, ?_, helements.symm, ?_, ?_, ?_⟩
  · intro i
    rw [read, flags, Access.testBit_foldl_union]
    simp only [List.mem_filterMap]
    constructor
    · rintro (hempty | ⟨flag, ⟨word, hword, hflag⟩, hbit⟩)
      · simp [Access.empty] at hempty
      · exact ⟨word, hword, flag, hflag, hbit⟩
    · rintro ⟨word, hword, flag, hflag, hbit⟩
      exact .inr ⟨flag, ⟨word, hword, hflag⟩, hbit⟩
  · simp [ListedMethod.hasCode, read]
  · intro i
    rw [← List.getElem?_map, htexts, List.getElem?_map]
    simp only [ListedMethod.line, if_neg (Int.not_lt.2 (Int.natCast_nonneg i)), Int.toNat_natCast]
  · intro l hl ins hins label hlabel
    cases hcode : e.code with
    | none => simp [ListedMethod.lines, read, hcode] at hl
    | some lines =>
        rw [hcode, Option.getD_some] at hreads
        exact CodeReading.count_label_eq_one (h.code lines hcode) hreads hprovides hl hins hlabel
  · intro l hl label hlabel l' hl' label' hlabel'
    obtain ⟨name, hname, rfl⟩ := (hprovides l hl).exists_name hlabel
    obtain ⟨name', hname', rfl⟩ := (hprovides l' hl').exists_name hlabel'
    constructor
    · exact LabelTable.eq_of_number_object hname hname'
    · intro hsame
      exact congrArg (fun name => (t.object name).number) hsame

end MethodEntry

namespace Document

theorem issues_eq_nil_iff (d : Document) :
    d.issues = [] ↔ ∀ e ∈ d.methods, e.Acceptable := by
  unfold issues
  rw [List.flatMap_eq_nil_iff]
  simp only [MethodEntry.issues_eq_nil_iff]
  constructor
  · intro h e he
    obtain ⟨i, hi, rfl⟩ := List.getElem_of_mem he
    exact h (d.methods[i], i) (by simp [List.mem_zipIdx_iff_getElem?, hi])
  · intro h p hp
    exact h p.1 (List.fst_mem_of_mem_zipIdx hp)

theorem check_eq_ok_iff {d : Document} {c : ListedClass} :
    d.check = .ok c ↔ d.issues = [] ∧ c = ⟨d.owner, d.methods.map (·.read d.owner)⟩ := by
  unfold check
  split
  · next hissues =>
    rw [List.isEmpty_iff] at hissues
    exact ⟨fun h => ⟨hissues, (Except.ok.inj h).symm⟩, fun h => by rw [h.2]⟩
  · next hissues =>
    refine iff_of_false nofun fun h => hissues ?_
    rw [h.1]
    rfl

/-- A listing is accepted if nothing is wrong with any line, label or modifier, and it is read as
it is written. -/
theorem check_reads_listing (d : Document) :
    ((∃ c, d.check = .ok c) ↔ ∀ e ∈ d.methods, e.Acceptable) ∧
      ∀ c, d.check = .ok c →
        c.name = d.owner ∧ List.Forall₂ (MethodEntry.ReadAs d.owner) d.methods c.methods := by
  refine ⟨?_, ?_⟩
  · rw [← issues_eq_nil_iff]
    constructor
    · rintro ⟨c, hc⟩
      exact (check_eq_ok_iff.1 hc).1
    · intro hissues
      exact ⟨_, check_eq_ok_iff.2 ⟨hissues, rfl⟩⟩
  · intro c hc
    obtain ⟨hissues, rfl⟩ := check_eq_ok_iff.1 hc
    refine ⟨rfl, ?_⟩
    rw [List.forall₂_map_right_iff, List.forall₂_same]
    intro e he
    exact (issues_eq_nil_iff d |>.1 hissues e he).readAs d.owner

/-- Labels used before and after their definitions, an empty body and no body. -/
def looping : Document where
  owner := "A"
  methods :=
    [{ name := "f", descriptor := "(I)V", access := ["public", "static"], parameters := ["n"],
       code := some ["L0:", "  iload_0 ", "ifeq L1", "GOTO L0", "L1:",
         "lookupswitch -1:L0 5:L1 default L2", "L2:", "return"] },
      { name := "g", descriptor := "()V", code := some [] },
      { name := "h", descriptor := "()V", access := ["abstract"] }]

theorem check_reads_listing_looping :
    (∀ e ∈ looping.methods, e.Acceptable) ∧
      ∃ c, looping.check = .ok c ∧ c.name = looping.owner ∧
        List.Forall₂ (MethodEntry.ReadAs looping.owner) looping.methods c.methods := by
  have hacceptable : ∀ e ∈ looping.methods, e.Acceptable := by decide +kernel
  obtain ⟨c, hc⟩ := (check_reads_listing looping).1.2 hacceptable
  exact ⟨hacceptable, c, hc, (check_reads_listing looping).2 c hc⟩

end Document

end OperandStack
