import OperandStack.Proofs.DescriptorGrammar
import OperandStack.Proofs.Labels
import OperandStack.Proofs.Quotation

/-!
# Instructions are read back

An instruction is written as its mnemonic and its operands, with spaces between them. If the
operands are legible (`Instruction.Legible`), a reader gets the instruction back from its text,
whatever labels it has met before (`instruction_text_reads_back`).

The line is taken apart once and for all in `Line.read_operands`. After that it is one lemma for
each kind of operand: numbers, names, members and constants.
-/

namespace OperandStack

/-! ## Legible instructions -/

def Opcode.takes (op : Opcode) (form : Form) : Bool := op.isDefined && op.form = form

def isWord64 (n : Int) : Bool := -9223372036854775808 ≤ n && n < 9223372036854775808

/-- Bytes that a class literal must not begin with: they begin a string or a number. -/
def Literal.reserved : Text := "\"+-.0123456789"

/-- A constant that is written as it would be read by the given opcode. -/
def Literal.isLegible (op : Opcode) : Literal → Bool
  | .int _ => op ≠ .ldc2W
  | .long _ => op = .ldc2W
  | .string _ => true
  | .classRef name => name.isTrimmed && name.head?.all fun b => !reserved.contains b
  | _ => false

/-- A member is legible if its owner and its name can be told apart at the last dot. -/
def isLegibleMember (owner name : Text) : Bool :=
  owner.isWord && name.isWord && !name.contains (Text.byte '.')

/-- Written so that it can be read: the opcode fits the form, numbers are in range, and no name is
empty or has white space in it. Switches and call sites are abridged, and not legible. -/
inductive Instruction.Legible : Instruction → Prop
  | plain {op : Opcode} : op.takes .insn → Legible (.plain op)
  | int {op : Opcode} {n : Int} : op.takes .int → isWord64 n → Legible (.int op n)
  | var {op : Opcode} {slot : Int} : op.takes .var → isWord64 slot → Legible (.var op slot)
  | type {op : Opcode} {name : Text} : op.takes .type → name.isWord → Legible (.type op name)
  | field {op : Opcode} {owner name desc : Text} : op.takes .field → isLegibleMember owner name →
      desc.isWord → Legible (.field op owner name desc)
  /-- A member of an interface is called by an opcode of its own. -/
  | method {op : Opcode} {owner name desc : Text} : op.takes .method →
      isLegibleMember owner name → desc.isWord →
      Legible (.method op owner name desc (op = .invokeinterface))
  | jump {op : Opcode} {target : Label} : op.takes .jump → target.name.isWord →
      Legible (.jump op (some target))
  | iinc {slot inc : Int} : isWord64 slot → isWord64 inc → Legible (.iinc slot inc)
  | multiNewArray {desc : Text} {dims : Int} : desc.isWord → isWord64 dims →
      Legible (.multiNewArray desc dims)
  | ldc {op : Opcode} {value : Literal} : op.takes .ldc → value.isLegible op →
      Legible (.ldc (some op) value)

/-! ## Mnemonics -/

namespace Operation

/-- Mnemonics are written in these bytes. -/
def alphabet : Text := "abcdefghijklmnopqrstuvwxyz0123456789_"

theorem spelled {o : Operation} (h : o ∈ all) :
    o.mnemonic ≠ [] ∧ ∀ b ∈ o.mnemonic, b ∈ alphabet := by
  have hall : all.all (fun o => o.mnemonic ≠ [] && o.mnemonic.all alphabet.contains) = true := by
    decide +kernel
  simpa using List.all_eq_true.1 hall o h

theorem of_mem_alphabet {b : UInt8} (h : b ∈ alphabet) :
    (0x21 ≤ b.toNat ∧ b.toNat ≤ 0x7E) ∧ b ≠ Text.byte ':' ∧
      Text.ofChar (Line.lowerChar (Char.ofNat b.toNat)) = [b] := by
  have hall : alphabet.all (fun b => (0x21 ≤ b.toNat && b.toNat ≤ 0x7E) && (b ≠ Text.byte ':' &&
      Text.ofChar (Line.lowerChar (Char.ofNat b.toNat)) = [b])) = true := by
    decide +kernel
  simpa using List.all_eq_true.1 hall b h

/-- The bytes of a text as the digits of one number: numbers are compared faster than texts. -/
def key (t : Text) : Nat := t.foldl (fun n b => n * 256 + b.toNat) 0

def areDistinct : List Nat → Bool
  | [] => true
  | k :: ks => ks.all (fun k' => !Nat.beq k k') && areDistinct ks

theorem pairwise_of_areDistinct {ks : List Nat} (h : areDistinct ks = true) :
    ks.Pairwise (· ≠ ·) := by
  induction ks with
  | nil => exact List.Pairwise.nil
  | cons k ks ih =>
      obtain ⟨hk, hks⟩ := Bool.and_eq_true_iff.1 h
      refine List.pairwise_cons.2 ⟨fun k' hmem hsame => ?_, ih hks⟩
      simpa [hsame] using List.all_eq_true.1 hk k' hmem

theorem mnemonics_differ : all.Pairwise fun o o' => o.mnemonic ≠ o'.mnemonic := by
  have hkeys : (all.map fun o => key o.mnemonic).Pairwise (· ≠ ·) :=
    pairwise_of_areDistinct (by decide +kernel)
  refine List.Pairwise.of_map (fun o => key o.mnemonic) (fun o o' hne hsame => ?_) hkeys
  exact hne (congrArg key hsame)

theorem findIdx?_mnemonic {i : Nat} {o : Operation} (h : all[i]? = some o) :
    all.findIdx? (·.mnemonic = o.mnemonic) = some i := by
  obtain ⟨hi, ho⟩ := List.getElem?_eq_some_iff.1 h
  rw [List.findIdx?_eq_some_iff_getElem]
  refine ⟨hi, by simp [ho], fun j hj => ?_⟩
  have hne := List.pairwise_iff_getElem.1 mnemonics_differ j i (Nat.lt_trans hj hi) hi hj
  rw [ho] at hne
  simpa using hne

end Operation

/-- A mnemonic is a word that stands for its operation and defines no label. -/
structure Opcode.Readable (op : Opcode) : Prop where
  word : op.toText.isWord = true
  lower : Line.lowerMnemonic op.toText = op.toText
  inverse : Opcode.ofMnemonic? op.toText = some op
  undefining : Line.isDefinition op.toText = false

theorem Text.startsWith_cons (a b : UInt8) (t : Text) :
    startsWith (a :: t) [b] = decide (b = a) := by
  by_cases h : b = a <;> simp [startsWith, stripHead?, h]

theorem Text.mem_of_startsWith {t : Text} {b : UInt8} (h : t.startsWith [b] = true) : b ∈ t := by
  cases t with
  | nil => cases h
  | cons a t =>
      rw [startsWith_cons, decide_eq_true_eq] at h
      rw [h]
      exact List.mem_cons_self

theorem Text.mem_of_endsWith {t : Text} {b : UInt8} (h : t.endsWith [b] = true) : b ∈ t :=
  List.mem_reverse.1 (mem_of_startsWith h)

theorem Line.lowerMnemonic_eq {t : Text} (h : ∀ b ∈ t, b ∈ Operation.alphabet) :
    lowerMnemonic t = t := by
  induction t with
  | nil => rfl
  | cons b t ih =>
      obtain ⟨hb, hrest⟩ := List.forall_mem_cons.1 h
      obtain ⟨hgraphic, -, hlower⟩ := Operation.of_mem_alphabet hb
      have hascii : b < 0x80 := UInt8.lt_iff_toNat_lt.2 (Nat.lt_succ_of_le (by omega))
      rw [lowerMnemonic, Utf8.pieces_ascii hascii, List.flatMap_cons]
      change Text.ofChar (lowerChar (Char.ofNat b.toNat)) ++ lowerMnemonic t = _
      rw [hlower, ih hrest]
      rfl

theorem Opcode.readable {op : Opcode} (h : op.isDefined = true) : op.Readable := by
  obtain ⟨o, ho⟩ := Option.isSome_iff_exists.1 h
  have htext : op.toText = o.mnemonic := by rw [toText, ho]
  obtain ⟨hne, hspelled⟩ := Operation.spelled (List.mem_of_getElem? ho)
  rw [← htext] at hne hspelled
  constructor
  · exact Text.isWord_of_graphic hne fun b hb => (Operation.of_mem_alphabet (hspelled b hb)).1
  · exact Line.lowerMnemonic_eq hspelled
  · rw [ofMnemonic?, htext, Operation.findIdx?_mnemonic ho]
    exact congrArg (fun code => some (Opcode.mk code)) UInt8.ofNat_toNat
  · rw [Line.isDefinition, Bool.and_assoc, Bool.and_eq_false_iff]
    refine .inl (Bool.eq_false_iff.2 fun hends => ?_)
    exact (Operation.of_mem_alphabet (hspelled _ (Text.mem_of_endsWith hends))).2.1 rfl

namespace Line

variable {op : Opcode} {rest : Text}

/-! ## Lines -/

theorem read_operands (hop : op.Readable) (hrest : rest.isTrimmed = true) :
    read (op.toText ++ Text.byte ' ' :: rest) = readInstruction op rest := by
  have htrim := Text.isTrimmed_append (Text.isTrimmed_of_isWord hop.word) hrest
  have hdefinition : isDefinition (op.toText ++ Text.byte ' ' :: rest) = false := by
    simp [isDefinition]
  rw [read, Text.trim_eq htrim, readTrimmed, hdefinition, Text.fields_word_append hop.word]
  simp only [Bool.false_eq_true, if_false, hop.lower, hop.inverse, List.drop_left]
  rw [Text.trim_space, Text.trim_eq hrest]

theorem read_mnemonic (hop : op.Readable) : read op.toText = readInstruction op [] := by
  rw [read, Text.trim_eq (Text.isTrimmed_of_isWord hop.word), readTrimmed, hop.undefining,
    Text.fields_word hop.word]
  simp only [Bool.false_eq_true, if_false, hop.lower, hop.inverse, List.drop_length]
  rfl

/-! ## Numbers -/

theorem not_mem_ofInt {n : Int} {b : UInt8} (hsign : b ≠ Text.byte '-')
    (hdigit : Numeral.isDigit b = false) : b ∉ Text.ofInt n := by
  intro hb
  rcases Text.mem_ofInt hb with h | h
  · exact hsign h
  · cases h.symm.trans hdigit

theorem lookup_arrayTypes (n : Int) : arrayTypes.lookup (Text.ofInt n) = none := by
  have hletters : arrayTypes.all (fun p => p.1.any fun b =>
      b ≠ Text.byte '-' && !Numeral.isDigit b) = true := by decide
  rw [List.lookup_eq_none_iff]
  intro p hp
  obtain ⟨b, hb, hother⟩ := List.any_eq_true.1 (List.all_eq_true.1 hletters p hp)
  obtain ⟨hsign, hdigit⟩ : b ≠ Text.byte '-' ∧ Numeral.isDigit b = false := by simpa using hother
  have hne : Text.ofInt n ≠ p.1 := fun hsame => not_mem_ofInt hsign hdigit (hsame ▸ hb)
  simpa using hne

theorem int?_ofInt_of_isWord64 {n : Int} (h : isWord64 n = true) :
    Numeral.int? (Text.ofInt n) = some n := by
  rw [isWord64, Bool.and_eq_true, decide_eq_true_eq, decide_eq_true_eq] at h
  exact Numeral.int?_ofInt h.1 h.2

theorem readInteger_ofInt (op : Opcode) {n : Int} (h : isWord64 n = true) :
    readInteger op (Text.ofInt n) = .ok n := by
  simp [readInteger, lookup_arrayTypes, int?_ofInt_of_isWord64 h]

/-! ## Members -/

theorem splitMember_eq {owner name : Text} (h : isLegibleMember owner name = true) :
    splitMember (owner ++ Text.byte '.' :: name) = .ok (owner, name) := by
  simp only [isLegibleMember, Bool.and_eq_true, Bool.not_eq_true', Text.isWord_iff] at h
  obtain ⟨⟨⟨howner, -⟩, hname, -⟩, hdot⟩ := h
  have hcut : Text.cut? (Text.byte '.') (owner ++ Text.byte '.' :: name).reverse =
      some (name.reverse, owner.reverse) := by
    rw [Text.cut?_eq_some_iff]
    simpa using hdot
  rw [splitMember, Text.cutLast?, hcut]
  simp [howner, hname]

theorem isWord_member {owner name : Text} (h : isLegibleMember owner name = true) :
    (owner ++ Text.byte '.' :: name).isWord = true := by
  simp only [isLegibleMember, Bool.and_eq_true, Text.isWord_iff] at h
  obtain ⟨⟨⟨howner, hfront⟩, -, hback⟩, -⟩ := h
  have hdot : (Utf8.Piece.char '.').isBlank = false := by decide
  rw [Text.isWord_iff, Utf8.pieces_append (by decide), Text.pieces_byte_cons (by decide)]
  refine ⟨by simp, fun p hp => ?_⟩
  rcases List.mem_append.1 hp with hp | hp
  · exact hfront p hp
  · rcases List.mem_cons.1 hp with rfl | hp
    · exact hdot
    · exact hback p hp

/-! ## Constants -/

theorem startsNumber_ofInt (n : Int) : startsNumber (Text.ofInt n) = true := by
  cases h : Text.ofInt n with
  | nil => exact absurd h (Text.ofInt_ne_nil n)
  | cons b t =>
      have hb : b ∈ Text.ofInt n := h ▸ List.mem_cons_self
      rcases Text.mem_ofInt hb with rfl | hdigit
      · rfl
      · simp [startsNumber, hdigit]

/-- A number without a suffix is read by the width of the operation. -/
theorem readNumber_ofInt (op : Opcode) (n : Int) :
    readNumber op (Text.ofInt n) =
      if op = .ldc2W then readLong op (Text.ofInt n) else readInt op (Text.ofInt n) := by
  obtain ⟨b, hlast, hdigit⟩ := Text.getLast?_ofInt n
  rw [Numeral.isDigit_iff] at hdigit
  have hlower : Numeral.lowerByte b = b := by
    rw [Numeral.lowerByte, if_neg]
    simp [UInt8.le_iff_toNat_le]
    omega
  have hne (k : UInt8) (hk : 57 < k.toNat) : b ≠ k := by
    rintro rfl
    omega
  have hmarks : (Text.ofInt n).any decimalMarks.contains = false := by
    have hother : decimalMarks.all (fun b => b ≠ Text.byte '-' && !Numeral.isDigit b) = true := by
      decide
    refine List.any_eq_false.2 fun b hb hmark => ?_
    obtain ⟨hsign, hdigit⟩ : b ≠ Text.byte '-' ∧ Numeral.isDigit b = false := by
      simpa using List.all_eq_true.1 hother b (List.contains_iff_mem.1 hmark)
    exact not_mem_ofInt hsign hdigit hb
  simp only [readNumber, hlast, Option.map_some, Option.getD_some, hlower, hmarks,
    hne (Text.byte 'l') (by decide), hne (Text.byte 'f') (by decide),
    hne (Text.byte 'd') (by decide), if_false, Bool.false_eq_true]

theorem readConstant_ofInt (op : Opcode) (n : Int) :
    readConstant op (Text.ofInt n) = readNumber op (Text.ofInt n) := by
  have hquote : Text.startsWith (Text.ofInt n) "\"" = false :=
    Bool.eq_false_iff.2 fun h => not_mem_ofInt (by decide) (by decide) (Text.mem_of_startsWith h)
  rw [readConstant, if_neg (by simp [Text.ofInt_ne_nil]), hquote, startsNumber_ofInt]
  rfl

theorem readConstant_int (hop : op ≠ .ldc2W) (v : Int32) :
    readConstant op (Text.ofInt v.toInt) = .ok (.int v) := by
  have hread : Numeral.readInt 32 (Text.ofInt v.toInt) = .ok v.toInt :=
    Numeral.readInt_ofInt (by decide) (Int32.le_toInt v) (Int32.toInt_lt v)
  rw [readConstant_ofInt, readNumber_ofInt, if_neg hop, readInt, hread]
  exact congrArg (fun v => Except.ok (Literal.int v)) (Int32.ofInt_toInt v)

theorem readConstant_long (v : Int64) :
    readConstant .ldc2W (Text.ofInt v.toInt) = .ok (.long v) := by
  have hread : Numeral.readInt 64 (Text.ofInt v.toInt) = .ok v.toInt :=
    Numeral.readInt_ofInt (by decide) (Int64.le_toInt v) (Int64.toInt_lt v)
  rw [readConstant_ofInt, readNumber_ofInt, if_pos rfl, readLong, hread]
  exact congrArg (fun v => Except.ok (Literal.long v)) (Int64.ofInt_toInt v)

theorem readConstant_quote (op : Opcode) (t : Text) :
    readConstant op (Text.quote t) = .ok (.string t) := by
  have hquote : Text.startsWith (Text.quote t) "\"" = true := rfl
  rw [readConstant, if_neg (by simp [Text.quote]), if_pos hquote, Text.unquote?_quote]

theorem readConstant_class (op : Opcode) {name : Text}
    (h : Literal.isLegible op (.classRef name) = true) :
    readConstant op name = .ok (.classRef name) := by
  simp only [Literal.isLegible, Bool.and_eq_true, Text.isTrimmed_iff] at h
  obtain ⟨⟨hne, -⟩, hhead⟩ := h
  cases name with
  | nil => exact absurd rfl hne
  | cons b rest =>
      have hfree (k : UInt8) (hk : k ∈ Literal.reserved) : b ≠ k := by
        rintro rfl
        simp [hk] at hhead
      have hquote : Text.startsWith (b :: rest) "\"" = false := by
        change Text.startsWith (b :: rest) [Text.byte '"'] = false
        rw [Text.startsWith_cons, decide_eq_false_iff_not]
        exact (hfree _ (by decide)).symm
      have hdigit : Numeral.isDigit b = false := by
        have hdigits : ∀ k < 58, 48 ≤ k → UInt8.ofNat k ∈ Literal.reserved := by decide
        refine Bool.eq_false_iff.2 fun h => ?_
        rw [Numeral.isDigit_iff] at h
        exact hfree _ (hdigits b.toNat (by omega) h.1) UInt8.ofNat_toNat.symm
      have hnumber : startsNumber (b :: rest) = false := by
        simp [startsNumber, hdigit, hfree (Text.byte '-') (by decide),
          hfree (Text.byte '+') (by decide), hfree (Text.byte '.') (by decide)]
      rw [readConstant, if_neg (by simp), hquote, hnumber]
      rfl

/-! ## Instructions -/

theorem read_words {words : List Text} (hop : op.Readable) (hldc : op.form ≠ .ldc)
    (hlookup : op.form ≠ .lookupSwitch) (hwords : ∀ w ∈ words, w.isWord = true) :
    read (op.toText ++ Text.listed " " words) = .ofInstruction (readOperands op words) := by
  have hforms (rest : Text) :
      readInstruction op rest = .ofInstruction (readOperands op (Text.fields rest)) := by
    unfold readInstruction
    split
    · contradiction
    · contradiction
    · rfl
  cases words with
  | nil =>
      rw [Text.listed, List.flatMap_nil, List.append_nil, read_mnemonic hop, hforms]
      rfl
  | cons w words =>
      obtain ⟨hw, hrest⟩ := List.forall_mem_cons.1 hwords
      have htrim := Text.isTrimmed_append_listed hw hrest
      rw [Text.listed_space_cons, read_operands hop htrim, hforms,
        Text.fields_append_listed hw hrest]

theorem read_constant {t : Text} {value : Literal} (hop : op.Readable) (hform : op.form = .ldc)
    (htrim : t.isTrimmed = true) (hread : readConstant op t = .ok value) :
    read (op.toText ++ Text.byte ' ' :: t) = .ofInstruction (.ok (.ldc (some op) value)) := by
  rw [read_operands hop htrim, readInstruction, hform, hread]
  rfl

end Line

namespace Instruction

variable {ins : Instruction}

def words : Instruction → List Text
  | .int _ n => [Text.ofInt n]
  | .var _ slot => [Text.ofInt slot]
  | .type _ name => [name]
  | .field _ owner name desc => [owner ++ Text.byte '.' :: name, desc]
  | .method _ owner name desc _ => [owner ++ Text.byte '.' :: name, desc]
  | .jump _ target => [labelText target]
  | .iinc slot inc => [Text.ofInt slot, Text.ofInt inc]
  | .multiNewArray desc dims => [desc, Text.ofInt dims]
  | _ => []

theorem Legible.takes (h : ins.Legible) : ins.opcode.takes ins.form = true := by
  cases h with
  | iinc => exact (by decide +kernel : Opcode.iinc.takes .iinc = true)
  | multiNewArray => exact (by decide +kernel : Opcode.multianewarray.takes .multiNewArray = true)
  | _ => assumption

theorem Legible.form_ne_lookupSwitch (h : ins.Legible) : ins.form ≠ .lookupSwitch := by
  cases h <;> exact nofun

theorem memberText_eq (op : Opcode) (owner name : Text) :
    memberText op owner name = op.toText ++ " " ++ (owner ++ Text.byte '.' :: name) := by
  simp only [memberText, List.append_assoc]
  rfl

theorem Legible.toText_eq (h : ins.Legible) (hldc : ins.form ≠ .ldc) :
    ins.toText = ins.opcode.toText ++ Text.listed " " ins.words := by
  cases h with
  | ldc => exact absurd rfl hldc
  | plain => exact (List.append_nil _).symm
  | iinc =>
      have hmnemonic : ("iinc " : Text) = Opcode.iinc.toText ++ " " := by decide +kernel
      simp [toText, words, Text.listed, opcode, hmnemonic]
  | multiNewArray =>
      have hmnemonic : ("multianewarray " : Text) = Opcode.multianewarray.toText ++ " " := by
        decide +kernel
      simp [toText, words, Text.listed, opcode, hmnemonic]
  | _ => simp [toText, memberText_eq, words, Text.listed, opcode, labelText]

theorem Legible.isWord_words (h : ins.Legible) : ∀ w ∈ ins.words, w.isWord = true := by
  cases h with
  | plain => exact List.forall_mem_nil _
  | ldc => exact List.forall_mem_nil _
  | _ => simp [words, *, Text.isWord_ofInt, Line.isWord_member, labelText]

theorem Legible.readOperands_words (h : ins.Legible) (hldc : ins.form ≠ .ldc) :
    Line.readOperands ins.opcode ins.words = .ok ins.named := by
  have hform : ins.opcode.form = ins.form := by
    simpa [Opcode.takes] using (Bool.and_eq_true_iff.1 h.takes).2
  unfold Line.readOperands
  rw [hform]
  cases h with
  | ldc => exact absurd rfl hldc
  | plain => rfl
  | int _ hn =>
      simp only [form, words, opcode, Line.readInteger_ofInt _ hn]
      rfl
  | var _ hslot =>
      simp only [form, words, opcode, Line.int?_ofInt_of_isWord64 hslot]
      rfl
  | iinc hslot hinc =>
      simp only [form, words, Line.int?_ofInt_of_isWord64, hslot, hinc]
      rfl
  | type => rfl
  | field _ hmember _ =>
      simp only [form, words, opcode, Line.readField, Line.splitMember_eq hmember]
      rfl
  | method _ hmember _ =>
      simp only [form, words, opcode, Line.readMethod, Line.splitMember_eq hmember]
      rfl
  | jump => rfl
  | multiNewArray _ hdims =>
      simp only [form, words, Line.int?_ofInt_of_isWord64 hdims]
      rfl

/-- A legible constant is written as a text that is read as the constant. -/
theorem exists_constant {op : Opcode} {value : Literal} (h : value.isLegible op = true) :
    ∃ t : Text, (ldc (some op) value).toText = op.toText ++ Text.byte ' ' :: t ∧
      t.isTrimmed = true ∧ Line.readConstant op t = .ok value := by
  have hnumber (n : Int) := Text.isTrimmed_of_isWord (Text.isWord_ofInt n)
  cases value with
  | int v =>
      exact ⟨_, List.append_assoc _ _ _, hnumber _, Line.readConstant_int (of_decide_eq_true h) v⟩
  | long v =>
      cases of_decide_eq_true h
      exact ⟨_, List.append_assoc _ _ _, hnumber _, Line.readConstant_long v⟩
  | string t =>
      exact ⟨_, List.append_assoc _ _ _, Text.isTrimmed_quote t, Line.readConstant_quote op t⟩
  | classRef name =>
      have htrim : name.isTrimmed = true := (Bool.and_eq_true_iff.1 h).1
      exact ⟨_, List.append_assoc _ _ _, htrim, Line.readConstant_class op h⟩
  | _ => cases h

theorem Legible.read_toText (h : ins.Legible) :
    Line.read ins.toText = .ofInstruction (.ok ins.named) := by
  obtain ⟨hdefined, hform⟩ : ins.opcode.isDefined = true ∧ ins.opcode.form = ins.form := by
    simpa [Opcode.takes] using h.takes
  have hop := Opcode.readable hdefined
  by_cases hldc : ins.form = .ldc
  · cases h with
    | ldc _ hvalue =>
        obtain ⟨t, htext, htrim, hread⟩ := exists_constant hvalue
        rw [htext]
        exact Line.read_constant hop hform htrim hread
    | _ => cases hldc
  · have hlookup := h.form_ne_lookupSwitch
    rw [← hform] at hlookup
    rw [h.toText_eq hldc, Line.read_words hop (hform ▸ hldc) hlookup h.isWord_words,
      h.readOperands_words hldc]

end Instruction

/-- The text of an instruction is read as the instruction. For any legible instruction and any
labels that have been met so far, the line is accepted, gives the same instruction up to which
labels have its names, and mentions the names of the labels that the instruction may go to. If its
labels are among those met so far, the very same instruction is read. -/
theorem instruction_text_reads_back (labels : LabelTable) (ins : Instruction) (h : ins.Legible) :
    ∃ ins' : Instruction,
      labels.enter (Line.read ins.toText) =
        (labels.mention (ins.targets.map (·.name)), .ok (.instruction ins')) ∧
      ins'.named = ins.named ∧
      ((∀ label ∈ ins.targets, label.name ∈ labels.labels ∧ labels.object label.name = label) →
        ins' = ins) := by
  have hread : (Line.read ins.toText).result = .ok (.instruction ins.named) := by
    rw [h.read_toText]
    rfl
  have htargets : ins.named.targets = ins.targets.map (·.name) := Instruction.targets_map ins
  refine ⟨ins.named.map (labels.mention ins.named.targets).object, ?_, ?_, fun hmet => ?_⟩
  · rw [LabelTable.enter_of_instruction hread, htargets]
  · exact CodeElement.instruction.inj (LabelTable.named_map_object _ (.instruction ins.named))
  · have hsame : ∀ label ∈ ins.targets,
        (labels.mention ins.named.targets).object label.name = id label := by
      intro label hlabel
      obtain ⟨hname, hobject⟩ := hmet label hlabel
      exact (LabelTable.object_mention hname _).trans hobject
    rw [Instruction.named, Instruction.map_map]
    exact (Instruction.map_congr hsame).trans ins.map_id

theorem instruction_text_reads_back_stray :
    let text : Text := 0xFF :: "\"\n:"
    let load : Instruction := .ldc (some .ldc) (.string text)
    let call : Instruction := .method .invokeinterface "a.b" "c" "()V" true
    let back : Instruction := .jump ⟨167⟩ (some ⟨1, "L1"⟩)
    load.toText = "ldc \"\\xff\\\"\\n:\"" ∧ call.toText = "invokeinterface a.b.c ()V" ∧
      back.toText = "goto L1" ∧
      (LabelTable.enter {} (Line.read load.toText)).2 = .ok (.instruction load) ∧
      (LabelTable.enter {} (Line.read call.toText)).2 = .ok (.instruction call) ∧
      (LabelTable.enter ⟨["L0", "L1"], []⟩ (Line.read back.toText)).2 = .ok (.instruction back) := by
  intro text load call back
  have hload : load.Legible := .ldc (by decide +kernel) rfl
  have hcall : call.Legible := .method (by decide +kernel) (by decide) (by decide)
  have hback : back.Legible := .jump (by decide +kernel) (by decide)
  refine ⟨by decide +kernel, by decide +kernel, by decide +kernel, ?_, ?_, ?_⟩
  · obtain ⟨ins, henter, -, hsame⟩ := instruction_text_reads_back {} load hload
    rw [henter, hsame (List.forall_mem_nil _)]
  · obtain ⟨ins, henter, -, hsame⟩ := instruction_text_reads_back {} call hcall
    rw [henter, hsame (List.forall_mem_nil _)]
  · obtain ⟨ins, henter, -, hsame⟩ := instruction_text_reads_back ⟨["L0", "L1"], []⟩ back hback
    rw [henter, hsame (by decide)]

end OperandStack
