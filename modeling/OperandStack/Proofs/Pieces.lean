import OperandStack.Text.Blank

/-!
# Texts as characters and words

Reading a text and writing a character are inverse to each other. A character that is read was
written as the bytes it was read from (`Utf8.exists_of_head?`), and one that is written is read
again, whatever follows it (`Utf8.head?_of_ofChar`). So no byte of a text is lost
(`Utf8.ofPieces_pieces`), and a text falls into the same pieces on either side of an ASCII byte
(`Utf8.pieces_append`). From that, words with a space between them are the fields of a text.
-/

namespace OperandStack

namespace Utf8

variable {b : UInt8} {rest : Text} {c : Char} {n v : Nat}

/-! ## Encodings -/

theorem toNat_ofNat (h : v.isValidChar) : (Char.ofNat v).toNat = v := by
  rw [Char.ofNat, dif_pos h]
  rfl

theorem isValidChar_toNat (c : Char) :
    c.toNat < 0xD800 ∨ 0xDFFF < c.toNat ∧ c.toNat < 0x110000 := c.valid

theorem ofNat_eq_of_toNat (h : v = b.toNat) : UInt8.ofNat v = b := by
  rw [h, UInt8.ofNat_toNat]

theorem ofChar_one (h : c.toNat ≤ 0x7F) : Text.ofChar c = [.ofNat c.toNat] := by
  have hv : c.val.toNat ≤ 127 := h
  simp only [Text.ofChar, String.utf8EncodeChar, if_pos hv]
  rfl

theorem ofChar_two (hlo : 0x7F < c.toNat) (hhi : c.toNat ≤ 0x7FF) :
    Text.ofChar c = [.ofNat (c.toNat / 64 % 32 + 192), .ofNat (c.toNat % 64 + 128)] := by
  have hlo' : ¬ c.val.toNat ≤ 127 := Nat.not_le.2 hlo
  have hhi' : c.val.toNat ≤ 2047 := hhi
  simp only [Text.ofChar, String.utf8EncodeChar, if_neg hlo', if_pos hhi']
  rfl

theorem ofChar_three (hlo : 0x7FF < c.toNat) (hhi : c.toNat ≤ 0xFFFF) :
    Text.ofChar c = [.ofNat (c.toNat / 4096 % 16 + 224), .ofNat (c.toNat / 64 % 64 + 128),
      .ofNat (c.toNat % 64 + 128)] := by
  have hone : ¬ c.val.toNat ≤ 127 := by
    change ¬ c.toNat ≤ 127
    omega
  have htwo : ¬ c.val.toNat ≤ 2047 := Nat.not_le.2 hlo
  have hthree : c.val.toNat ≤ 65535 := hhi
  simp only [Text.ofChar, String.utf8EncodeChar, if_neg hone, if_neg htwo, if_pos hthree]
  rfl

theorem ofChar_four (hlo : 0xFFFF < c.toNat) :
    Text.ofChar c = [.ofNat (c.toNat / 262144 % 8 + 240), .ofNat (c.toNat / 4096 % 64 + 128),
      .ofNat (c.toNat / 64 % 64 + 128), .ofNat (c.toNat % 64 + 128)] := by
  have hone : ¬ c.val.toNat ≤ 127 := by
    change ¬ c.toNat ≤ 127
    omega
  have htwo : ¬ c.val.toNat ≤ 2047 := by
    change ¬ c.toNat ≤ 2047
    omega
  have hthree : ¬ c.val.toNat ≤ 65535 := Nat.not_le.2 hlo
  simp only [Text.ofChar, String.utf8EncodeChar, if_neg hone, if_neg htwo, if_neg hthree]
  rfl

theorem isContinuation_iff : isContinuation b = true ↔ 128 ≤ b.toNat ∧ b.toNat ≤ 191 := by
  simp [isContinuation, UInt8.le_iff_toNat_le]

/-! ### Reading -/

theorem ofChar_of_one (h : b.toNat ≤ 0x7F) : Text.ofChar (Char.ofNat b.toNat) = [b] := by
  have hv := toNat_ofNat (v := b.toNat) (.inl (by omega))
  rw [ofChar_one (by omega), hv, UInt8.ofNat_toNat]

theorem ofChar_of_two {b₁ : UInt8} (hb : 0xC2 ≤ b.toNat ∧ b.toNat ≤ 0xDF)
    (h₁ : isContinuation b₁ = true) (hv : v = b.toNat % 32 * 64 + payload b₁) :
    Text.ofChar (Char.ofNat v) = [b, b₁] := by
  rw [isContinuation_iff] at h₁
  unfold payload at hv
  have hchar := toNat_ofNat (v := v) (.inl (by omega))
  rw [ofChar_two (by omega) (by omega), hchar, ofNat_eq_of_toNat (b := b) (by omega),
    ofNat_eq_of_toNat (b := b₁) (by omega)]

theorem ofChar_of_three {b₁ b₂ : UInt8} (hb : 0xE0 ≤ b.toNat ∧ b.toNat ≤ 0xEF)
    (h₁ : isContinuation b₁ = true) (h₂ : isContinuation b₂ = true)
    (hv : v = (b.toNat % 16 * 64 + payload b₁) * 64 + payload b₂) (hlo : 0x800 ≤ v)
    (hvalid : ¬ (0xD800 ≤ v ∧ v ≤ 0xDFFF)) :
    Text.ofChar (Char.ofNat v) = [b, b₁, b₂] := by
  rw [isContinuation_iff] at h₁ h₂
  unfold payload at hv
  have hchar := toNat_ofNat (v := v) (by unfold Nat.isValidChar; omega)
  rw [ofChar_three (by omega) (by omega), hchar, ofNat_eq_of_toNat (b := b) (by omega),
    ofNat_eq_of_toNat (b := b₁) (by omega), ofNat_eq_of_toNat (b := b₂) (by omega)]

theorem ofChar_of_four {b₁ b₂ b₃ : UInt8} (hb : 0xF0 ≤ b.toNat ∧ b.toNat ≤ 0xF4)
    (h₁ : isContinuation b₁ = true) (h₂ : isContinuation b₂ = true) (h₃ : isContinuation b₃ = true)
    (hv : v = ((b.toNat % 8 * 64 + payload b₁) * 64 + payload b₂) * 64 + payload b₃)
    (hlo : 0x10000 ≤ v) (hhi : v ≤ 0x10FFFF) :
    Text.ofChar (Char.ofNat v) = [b, b₁, b₂, b₃] := by
  rw [isContinuation_iff] at h₁ h₂ h₃
  unfold payload at hv
  have hchar := toNat_ofNat (v := v) (by unfold Nat.isValidChar; omega)
  rw [ofChar_four (by omega), hchar, ofNat_eq_of_toNat (b := b) (by omega),
    ofNat_eq_of_toNat (b := b₁) (by omega), ofNat_eq_of_toNat (b := b₂) (by omega),
    ofNat_eq_of_toNat (b := b₃) (by omega)]

/-- A character that is read is written as the bytes it was read from. -/
theorem exists_of_head? (h : head? b rest = some (c, n)) :
    ∃ bs rest', rest = bs ++ rest' ∧ Text.ofChar c = b :: bs := by
  unfold head? at h
  split at h
  · next hone =>
    cases h
    exact ⟨[], rest, rfl, ofChar_of_one (Nat.le_of_lt_succ (UInt8.lt_iff_toNat_lt.1 hone))⟩
  split at h
  · next htwo =>
    simp only [Bool.and_eq_true, decide_eq_true_eq, UInt8.le_iff_toNat_le] at htwo
    split at h
    · next b₁ rest' =>
      split at h
      · next h₁ =>
        cases h
        exact ⟨[b₁], rest', rfl, ofChar_of_two htwo h₁ rfl⟩
      · cases h
    · cases h
  split at h
  · next hthree =>
    simp only [Bool.and_eq_true, decide_eq_true_eq, UInt8.le_iff_toNat_le] at hthree
    split at h
    · next b₁ b₂ rest' =>
      simp only at h
      split at h
      · next hcond =>
        simp only [Bool.and_eq_true, decide_eq_true_eq, Bool.not_eq_true', decide_eq_false_iff_not,
          Bool.and_eq_false_iff] at hcond
        obtain ⟨⟨⟨h₁, h₂⟩, hlo⟩, hvalid⟩ := hcond
        cases h
        exact ⟨[b₁, b₂], rest', rfl, ofChar_of_three hthree h₁ h₂ rfl hlo (by omega)⟩
      · cases h
    · cases h
  split at h
  · next hfour =>
    simp only [Bool.and_eq_true, decide_eq_true_eq, UInt8.le_iff_toNat_le] at hfour
    split at h
    · next b₁ b₂ b₃ rest' =>
      simp only at h
      split at h
      · next hcond =>
        simp only [Bool.and_eq_true, decide_eq_true_eq] at hcond
        obtain ⟨⟨⟨⟨h₁, h₂⟩, h₃⟩, hlo⟩, hhi⟩ := hcond
        cases h
        exact ⟨[b₁, b₂, b₃], rest', rfl, ofChar_of_four hfour h₁ h₂ h₃ rfl hlo hhi⟩
      · cases h
    · cases h
  · cases h

/-! ### Writing -/

theorem head?_of_one (h : b.toNat = c.toNat) (hc : c.toNat ≤ 0x7F) :
    head? b rest = some (c, 0) := by
  have hone : b < 0x80 := UInt8.lt_iff_toNat_lt.2 (Nat.lt_succ_of_le (h ▸ hc))
  unfold head?
  rw [if_pos hone, h, Char.ofNat_toNat]

theorem not_ascii (h : 0x80 ≤ b.toNat) : ¬ b < 0x80 :=
  UInt8.not_lt.2 (UInt8.le_iff_toNat_le.2 h)

theorem head?_of_two {b₁ : UInt8} (hb : 0xC2 ≤ b.toNat ∧ b.toNat ≤ 0xDF)
    (h₁ : isContinuation b₁ = true) (hc : b.toNat % 32 * 64 + payload b₁ = c.toNat) :
    head? b (b₁ :: rest) = some (c, 1) := by
  have hone : ¬ b < 0x80 := not_ascii (by omega)
  have htwo : (0xC2 ≤ b && b ≤ 0xDF) = true := by
    simpa [UInt8.le_iff_toNat_le] using hb
  unfold head?
  rw [if_neg hone, if_pos htwo]
  simp [h₁, hc]

theorem head?_of_three {b₁ b₂ : UInt8} (hb : 0xE0 ≤ b.toNat ∧ b.toNat ≤ 0xEF)
    (h₁ : isContinuation b₁ = true) (h₂ : isContinuation b₂ = true)
    (hc : (b.toNat % 16 * 64 + payload b₁) * 64 + payload b₂ = c.toNat) (hlo : 0x800 ≤ c.toNat) :
    head? b (b₁ :: b₂ :: rest) = some (c, 2) := by
  have hone : ¬ b < 0x80 := not_ascii (by omega)
  have htwo : ¬ (0xC2 ≤ b && b ≤ 0xDF) = true := by
    simp [UInt8.le_iff_toNat_le]
    omega
  have hthree : (0xE0 ≤ b && b ≤ 0xEF) = true := by
    simpa [UInt8.le_iff_toNat_le] using hb
  have hvalid := isValidChar_toNat c
  unfold head?
  rw [if_neg hone, if_neg htwo, if_pos hthree]
  simp [h₁, h₂, hc, hlo]
  omega

theorem head?_of_four {b₁ b₂ b₃ : UInt8} (hb : 0xF0 ≤ b.toNat ∧ b.toNat ≤ 0xF4)
    (h₁ : isContinuation b₁ = true) (h₂ : isContinuation b₂ = true) (h₃ : isContinuation b₃ = true)
    (hc : ((b.toNat % 8 * 64 + payload b₁) * 64 + payload b₂) * 64 + payload b₃ = c.toNat)
    (hlo : 0x10000 ≤ c.toNat) : head? b (b₁ :: b₂ :: b₃ :: rest) = some (c, 3) := by
  have hone : ¬ b < 0x80 := not_ascii (by omega)
  have htwo : ¬ (0xC2 ≤ b && b ≤ 0xDF) = true := by
    simp [UInt8.le_iff_toNat_le]
    omega
  have hthree : ¬ (0xE0 ≤ b && b ≤ 0xEF) = true := by
    simp [UInt8.le_iff_toNat_le]
    omega
  have hfour : (0xF0 ≤ b && b ≤ 0xF4) = true := by
    simpa [UInt8.le_iff_toNat_le] using hb
  have hvalid := isValidChar_toNat c
  have hhi : c.toNat ≤ 0x10FFFF := by omega
  unfold head?
  rw [if_neg hone, if_neg htwo, if_neg hthree, if_pos hfour]
  simp [h₁, h₂, h₃, hc, hlo, hhi]

theorem toNat_byte (h : v < 256) : (UInt8.ofNat v).toNat = v :=
  UInt8.toNat_ofNat_of_lt' h

/-- A character that is written is read, whatever follows it. -/
theorem head?_of_ofChar (c : Char) (rest : Text) :
    ∃ b bs, Text.ofChar c = b :: bs ∧ head? b (bs ++ rest) = some (c, bs.length) := by
  have hvalid := isValidChar_toNat c
  have hcont (x : Nat) : isContinuation (UInt8.ofNat (x % 64 + 128)) = true := by
    rw [isContinuation_iff, toNat_byte (by omega)]
    omega
  have hpayload (x : Nat) : payload (UInt8.ofNat (x % 64 + 128)) = x % 64 := by
    rw [payload, toNat_byte (by omega)]
    omega
  by_cases hone : c.toNat ≤ 0x7F
  · exact ⟨_, _, ofChar_one hone, head?_of_one (toNat_byte (by omega)) hone⟩
  by_cases htwo : c.toNat ≤ 0x7FF
  · refine ⟨_, _, ofChar_two (by omega) htwo, head?_of_two ?_ (hcont _) ?_⟩
    · rw [toNat_byte (by omega)]
      omega
    · rw [hpayload, toNat_byte (by omega)]
      omega
  by_cases hthree : c.toNat ≤ 0xFFFF
  · refine ⟨_, _, ofChar_three (by omega) hthree,
      head?_of_three ?_ (hcont _) (hcont _) ?_ (by omega)⟩
    · rw [toNat_byte (by omega)]
      omega
    · rw [hpayload, hpayload, toNat_byte (by omega)]
      omega
  · refine ⟨_, _, ofChar_four (by omega),
      head?_of_four ?_ (hcont _) (hcont _) (hcont _) ?_ (by omega)⟩
    · rw [toNat_byte (by omega)]
      omega
    · rw [hpayload, hpayload, hpayload, toNat_byte (by omega)]
      omega

/-! ## Pieces of longer texts -/

theorem head?_append (hb : b < 0x80) (a : UInt8) (t rest : Text) :
    head? a (t ++ b :: rest) = head? a t := by
  have hcont : isContinuation b = false := by
    rw [Bool.eq_false_iff, ne_eq, isContinuation_iff]
    have := UInt8.lt_iff_toNat_lt.1 hb
    change b.toNat < 128 at this
    omega
  match t with
  | [] => rcases rest with _ | ⟨_, _ | ⟨_, _⟩⟩ <;> simp [head?, hcont]
  | [_] => rcases rest with _ | ⟨_, _⟩ <;> simp [head?, hcont]
  | [_, _] => simp [head?, hcont]
  | _ :: _ :: _ :: _ => rfl

theorem piecesFrom_eq (k : Nat) (t : Text) : piecesFrom k t = pieces (t.drop k) := by
  induction t generalizing k with
  | nil => cases k <;> rfl
  | cons b t ih =>
      cases k with
      | zero => rfl
      | succ k => exact ih k

theorem pieces_ofChar_append (c : Char) (t : Text) :
    pieces (Text.ofChar c ++ t) = .char c :: pieces t := by
  obtain ⟨b, bs, hc, hhead⟩ := head?_of_ofChar c t
  rw [hc, List.cons_append, pieces, piecesFrom, hhead]
  change Piece.char c :: piecesFrom bs.length (bs ++ t) = _
  rw [piecesFrom_eq, List.drop_left]

theorem pieces_stray (h : head? b rest = none) : pieces (b :: rest) = .stray b :: pieces rest := by
  rw [pieces, piecesFrom, h]
  rfl

/-- A text is empty, or it begins with a character or a stray byte. -/
theorem induction_on_pieces {motive : Text → Prop} (t : Text) (nil : motive [])
    (char : ∀ c rest, motive rest → motive (Text.ofChar c ++ rest))
    (stray : ∀ b rest, head? b rest = none → motive rest → motive (b :: rest)) : motive t := by
  match t with
  | [] => exact nil
  | b :: rest =>
      cases h : head? b rest with
      | none => exact stray b rest h (induction_on_pieces rest nil char stray)
      | some p =>
          obtain ⟨bs, rest', rfl, hc⟩ := exists_of_head? (c := p.1) (n := p.2) h
          rw [← List.cons_append, ← hc]
          exact char p.1 rest' (induction_on_pieces rest' nil char stray)
termination_by t.length

/-- No byte of a text is lost. -/
theorem ofPieces_pieces (t : Text) : ofPieces (pieces t) = t := by
  induction t using induction_on_pieces with
  | nil => rfl
  | char c rest ih =>
      rw [pieces_ofChar_append, ofPieces, List.flatMap_cons]
      exact congrArg (Text.ofChar c ++ ·) ih
  | stray b rest h ih =>
      rw [pieces_stray h, ofPieces, List.flatMap_cons]
      exact congrArg (b :: ·) ih

/-- A text is read apart at an ASCII byte. -/
theorem pieces_append (hb : b < 0x80) (t rest : Text) :
    pieces (t ++ b :: rest) = pieces t ++ pieces (b :: rest) := by
  induction t using induction_on_pieces with
  | nil => rfl
  | char c t ih => rw [List.append_assoc, pieces_ofChar_append, ih, pieces_ofChar_append]; rfl
  | stray a t h ih =>
      have hhead : head? a (t ++ b :: rest) = none := (head?_append hb a t rest).trans h
      rw [List.cons_append, pieces_stray hhead, ih, pieces_stray h]
      rfl

theorem pieces_ascii (hb : b < 0x80) (rest : Text) :
    pieces (b :: rest) = .char (Char.ofNat b.toNat) :: pieces rest := by
  have hone : b.toNat ≤ 0x7F := Nat.le_of_lt_succ (UInt8.lt_iff_toNat_lt.1 hb)
  rw [← pieces_ofChar_append, ofChar_of_one hone]
  rfl

end Utf8

/-! ## Words -/

namespace Utf8

theorem pieces_ne_nil {t : Text} (h : t ≠ []) : pieces t ≠ [] := by
  intro hnil
  apply h
  rw [← ofPieces_pieces t, hnil]
  rfl

variable {run ps : List Piece} {runs : List (List Piece)} {p q : Piece}

theorem fieldPieces_blank (hp : p.isBlank = true) : fieldPieces (p :: ps) = fieldPieces ps := by
  cases ps <;> simp [fieldPieces, hp]

theorem fieldPieces_last (hp : p.isBlank = false) (hq : q.isBlank = true) :
    fieldPieces (p :: q :: ps) = [p] :: fieldPieces ps := by
  rw [← fieldPieces_blank hq]
  simp [fieldPieces, hp, hq]

theorem fieldPieces_more (hp : p.isBlank = false) (hq : q.isBlank = false)
    (h : fieldPieces (q :: ps) = run :: runs) :
    fieldPieces (p :: q :: ps) = (p :: run) :: runs := by
  rw [fieldPieces, h]
  simp [hp, hq]

theorem fieldPieces_run (hne : run ≠ []) (hrun : ∀ p ∈ run, p.isBlank = false) :
    fieldPieces run = [run] := by
  induction run with
  | nil => exact absurd rfl hne
  | cons p run ih =>
      obtain ⟨hp, hrest⟩ := List.forall_mem_cons.1 hrun
      cases run with
      | nil => simp [fieldPieces, hp]
      | cons q run =>
          have hq := hrest q List.mem_cons_self
          exact fieldPieces_more hp hq (ih (List.cons_ne_nil q run) hrest)

theorem fieldPieces_append (hne : run ≠ []) (hrun : ∀ p ∈ run, p.isBlank = false)
    (hq : q.isBlank = true) : fieldPieces (run ++ q :: ps) = run :: fieldPieces ps := by
  induction run with
  | nil => exact absurd rfl hne
  | cons p run ih =>
      obtain ⟨hp, hrest⟩ := List.forall_mem_cons.1 hrun
      cases run with
      | nil => exact fieldPieces_last hp hq
      | cons p' run =>
          have hp' := hrest p' List.mem_cons_self
          exact fieldPieces_more hp hp' (ih (List.cons_ne_nil p' run) hrest)

theorem trimPieces_eq (hhead : ∀ p ∈ ps.head?, p.isBlank = false)
    (hlast : ∀ p ∈ ps.getLast?, p.isBlank = false) : trimPieces ps = ps := by
  have hfront : ps.dropWhile Piece.isBlank = ps := by
    cases ps with
    | nil => rfl
    | cons p ps => rw [List.dropWhile_cons_of_neg (by simp [hhead p rfl])]
  have hback : ps.reverse.dropWhile Piece.isBlank = ps.reverse := by
    rw [← List.head?_reverse] at hlast
    cases hrev : ps.reverse with
    | nil => rfl
    | cons p rest =>
        rw [hrev] at hlast
        rw [List.dropWhile_cons_of_neg (by simp [hlast p rfl])]
  rw [trimPieces, hfront, hback, List.reverse_reverse]

end Utf8

namespace Text

/-- A word is not empty and has no white space in it. -/
def isWord (t : Text) : Bool := !t.isEmpty && (Utf8.pieces t).all fun p => !p.isBlank

/-- A text that is not empty and has no white space at its ends. -/
def isTrimmed (t : Text) : Bool :=
  !t.isEmpty && (Utf8.pieces t).head?.all (fun p => !p.isBlank) &&
    (Utf8.pieces t).getLast?.all fun p => !p.isBlank

variable {t rest : Text}

theorem isWord_iff : t.isWord = true ↔ t ≠ [] ∧ ∀ p ∈ Utf8.pieces t, p.isBlank = false := by
  simp [isWord]

theorem isTrimmed_iff : t.isTrimmed = true ↔ t ≠ [] ∧
    (∀ p ∈ (Utf8.pieces t).head?, p.isBlank = false) ∧
      ∀ p ∈ (Utf8.pieces t).getLast?, p.isBlank = false := by
  simp [isTrimmed, Option.all_eq_true, and_assoc]

theorem isTrimmed_of_isWord (h : t.isWord = true) : t.isTrimmed = true := by
  rw [isWord_iff] at h
  rw [isTrimmed_iff]
  exact ⟨h.1, fun p hp => h.2 p (List.mem_of_head? hp), fun p hp => h.2 p (List.mem_of_getLast? hp)⟩

theorem ofChar_ascii {c : Char} (h : c.toNat < 0x80) : ofChar c = [byte c] :=
  Utf8.ofChar_one (Nat.le_of_lt_succ h)

theorem pieces_byte_cons {c : Char} (h : c.toNat < 0x80) (t : Text) :
    Utf8.pieces (byte c :: t) = .char c :: Utf8.pieces t := by
  rw [← Utf8.pieces_ofChar_append, ofChar_ascii h]
  rfl

theorem pieces_space (rest : Text) :
    Utf8.pieces (byte ' ' :: rest) = .char ' ' :: Utf8.pieces rest :=
  pieces_byte_cons (by decide) rest

theorem fields_word (h : t.isWord = true) : fields t = [t] := by
  rw [isWord_iff] at h
  rw [fields, Utf8.fieldPieces_run (Utf8.pieces_ne_nil h.1) h.2, List.map_singleton,
    Utf8.ofPieces_pieces]

theorem fields_word_append (h : t.isWord = true) (rest : Text) :
    fields (t ++ byte ' ' :: rest) = t :: fields rest := by
  rw [isWord_iff] at h
  rw [fields, Utf8.pieces_append (by decide), pieces_space,
    Utf8.fieldPieces_append (Utf8.pieces_ne_nil h.1) h.2 (by decide), List.map_cons,
    Utf8.ofPieces_pieces]
  rfl

theorem trim_eq (h : t.isTrimmed = true) : trim t = t := by
  rw [isTrimmed_iff] at h
  rw [trim, Utf8.trimPieces_eq h.2.1 h.2.2, Utf8.ofPieces_pieces]

theorem trim_space (rest : Text) : trim (byte ' ' :: rest) = trim rest := by
  have hblank : (Utf8.Piece.char ' ').isBlank = true := by decide
  rw [trim, pieces_space, Utf8.trimPieces, List.dropWhile_cons_of_pos hblank]
  rfl

theorem isTrimmed_append (ht : t.isTrimmed = true) (hrest : rest.isTrimmed = true) :
    (t ++ byte ' ' :: rest).isTrimmed = true := by
  rw [isTrimmed_iff] at ht hrest ⊢
  have hne := Utf8.pieces_ne_nil ht.1
  have hne' := Utf8.pieces_ne_nil hrest.1
  have hpieces : Utf8.pieces (t ++ byte ' ' :: rest) =
      (Utf8.pieces t ++ [.char ' ']) ++ Utf8.pieces rest := by
    rw [Utf8.pieces_append (by decide), pieces_space, List.append_assoc]
    rfl
  have hhead : (Utf8.pieces (t ++ byte ' ' :: rest)).head? = (Utf8.pieces t).head? := by
    rw [hpieces, List.append_assoc, List.head?_append, Option.or_of_isSome (by simpa using hne)]
  have hlast : (Utf8.pieces (t ++ byte ' ' :: rest)).getLast? = (Utf8.pieces rest).getLast? := by
    rw [hpieces, List.getLast?_append, Option.or_of_isSome (by simpa using hne')]
  rw [hhead, hlast]
  exact ⟨by simp, ht.2.1, hrest.2.2⟩

theorem listed_space_cons (t : Text) (ts : List Text) :
    listed " " (t :: ts) = byte ' ' :: (t ++ listed " " ts) :=
  List.append_assoc [byte ' '] t _

/-- Words behind spaces are the fields of a text. -/
theorem fields_append_listed {ts : List Text} (ht : t.isWord = true)
    (hts : ∀ t ∈ ts, t.isWord = true) : fields (t ++ listed " " ts) = t :: ts := by
  induction ts generalizing t with
  | nil => simpa [listed] using fields_word ht
  | cons t' ts ih =>
      obtain ⟨ht', hrest⟩ := List.forall_mem_cons.1 hts
      rw [listed_space_cons, fields_word_append ht, ih ht' hrest]

theorem isTrimmed_append_listed {ts : List Text} (ht : t.isWord = true)
    (hts : ∀ t ∈ ts, t.isWord = true) : (t ++ listed " " ts).isTrimmed = true := by
  induction ts generalizing t with
  | nil => simpa [listed] using isTrimmed_of_isWord ht
  | cons t' ts ih =>
      obtain ⟨ht', hrest⟩ := List.forall_mem_cons.1 hts
      rw [listed_space_cons]
      exact isTrimmed_append (isTrimmed_of_isWord ht) (ih ht' hrest)

end Text

end OperandStack
