import OperandStack.Proofs.Numerals
import OperandStack.Text.Quoted

/-!
# Quoted texts are read back

A quoted text is written piece by piece, and each piece is read on its own: what follows it makes no
difference (`Text.unquoteBody?_escapePiece`). There is one lemma for each way to write a piece. So
any text, with stray bytes, quotes and control characters in it, is read back from its quoted form
(`Text.unquote?_quote`).
-/

namespace OperandStack.Text

variable {n width : Nat} {t : Text} {cs : List Char}

/-! ## Hexadecimal notation -/

def hexStep (n : Nat) (c : Char) : Option Nat := (hexDigit? c).map fun d => n * 16 + d

theorem hexDigit?_digitChar : ∀ d < 16, hexDigit? (Nat.digitChar d) = some d := by decide

theorem toNat_digitChar_lt : ∀ d < 16, (Nat.digitChar d).toNat < 0x80 := by decide

theorem hexStep_digitChar {d : Nat} (hd : d < 16) (m : Nat) :
    [Nat.digitChar d].foldlM hexStep m = some (m * 16 + d) := by
  simp [hexStep, hexDigit?_digitChar d hd]

theorem foldlM_toDigits (n : Nat) : (Nat.toDigits 16 n).foldlM hexStep 0 = some n := by
  induction n using Nat.strongRecOn with
  | _ n ih =>
      rw [Nat.toDigits_eq_if (by decide)]
      split
      · next hlt => simpa using hexStep_digitChar hlt 0
      · next hge =>
        rw [List.foldlM_append, ih (n / 16) (by omega)]
        have hlast := hexStep_digitChar (Nat.mod_lt n (by decide : 0 < 16)) (n / 16)
        have hsum : n / 16 * 16 + n % 16 = n := by omega
        rwa [hsum] at hlast

theorem toNat_lt_of_mem_toDigits {c : Char} (h : c ∈ Nat.toDigits 16 n) : c.toNat < 0x80 := by
  induction n using Nat.strongRecOn with
  | _ n ih =>
      rw [Nat.toDigits_eq_if (by decide)] at h
      split at h
      · next hlt =>
        rw [List.mem_singleton.1 h]
        exact toNat_digitChar_lt n hlt
      · next hge =>
        rcases List.mem_append.1 h with h | h
        · exact ih (n / 16) (by omega) h
        · rw [List.mem_singleton.1 h]
          exact toNat_digitChar_lt _ (Nat.mod_lt n (by decide))

theorem foldlM_zeros (k : Nat) : (List.replicate k '0').foldlM hexStep 0 = some 0 := by
  induction k with
  | zero => rfl
  | succ k ih => exact ih

/-- As many digits as there is room for, and they are read as the number. -/
theorem exists_ofHex (hwidth : 0 < width) (h : n < Nat.pow 16 width) :
    ∃ cs, ofHex width n = ofDigits cs ∧ cs.length = width ∧ (∀ c ∈ cs, c.toNat < 0x80) ∧
      digitsValue? hexDigit? 16 cs = some n := by
  refine ⟨_, rfl, ?_, ?_, ?_⟩
  · have hlength := (Nat.length_toDigits_le_iff (by decide) hwidth).2 h
    simp
    omega
  · intro c hc
    rcases List.mem_append.1 hc with hc | hc
    · rw [(List.mem_replicate.1 hc).2]
      decide
    · exact toNat_lt_of_mem_toDigits hc
  · change List.foldlM hexStep 0 _ = _
    rw [List.foldlM_append, foldlM_zeros]
    exact foldlM_toDigits n

theorem pieces_ofDigits_append (h : ∀ c ∈ cs, c.toNat < 0x80) (t : Text) :
    Utf8.pieces (ofDigits cs ++ t) = cs.map .char ++ Utf8.pieces t := by
  induction cs with
  | nil => rfl
  | cons c cs ih =>
      obtain ⟨hc, hrest⟩ := List.forall_mem_cons.1 h
      exact (pieces_byte_cons hc _).trans (congrArg _ (ih hrest))

/-! ## Escapes -/

theorem pieces_escape {c : Char} (h : c.toNat < 0x80) (t : Text) :
    Utf8.pieces ([byte '\\', byte c] ++ t) = .char '\\' :: .char c :: Utf8.pieces t := by
  rw [List.cons_append, pieces_byte_cons (by decide), List.cons_append, pieces_byte_cons h]
  rfl

theorem unquoteBody?_hex2 (h : n < 256) (t : Text) :
    unquoteBody? (Utf8.pieces ("\\x" ++ ofHex 2 n ++ t)) =
      (unquoteBody? (Utf8.pieces t)).map (n.toUInt8 :: ·) := by
  obtain ⟨cs, hhex, hlength, hascii, hvalue⟩ := exists_ofHex (n := n) (by decide : 0 < 2) (by omega)
  match cs, hlength with
  | [a, b], _ =>
      have hmark : ("\\x" : Text) = [byte '\\', byte 'x'] := rfl
      rw [hhex, hmark, List.append_assoc, pieces_escape (by decide), pieces_ofDigits_append hascii]
      change unquoteBody? (.char '\\' :: .char 'x' :: .char a :: .char b :: Utf8.pieces t) = _
      rw [unquoteBody?, hvalue]
      rfl

theorem ofCode?_toNat (c : Char) : ofCode? c.toNat = some (ofChar c) := by
  have hvalid : c.toNat.isValidChar := c.valid
  rw [ofCode?, dif_pos hvalid]
  rfl

theorem unquoteBody?_hex4 {c : Char} (h : c.toNat < 0x10000) (t : Text) :
    unquoteBody? (Utf8.pieces ("\\u" ++ ofHex 4 c.toNat ++ t)) =
      (unquoteBody? (Utf8.pieces t)).map (ofChar c ++ ·) := by
  obtain ⟨cs, hhex, hlength, hascii, hvalue⟩ :=
    exists_ofHex (n := c.toNat) (by decide : 0 < 4) (by omega)
  match cs, hlength with
  | [a₁, a₂, a₃, a₄], _ =>
      have hmark : ("\\u" : Text) = [byte '\\', byte 'u'] := rfl
      rw [hhex, hmark, List.append_assoc, pieces_escape (by decide), pieces_ofDigits_append hascii]
      change unquoteBody? (.char '\\' :: .char 'u' :: .char a₁ :: .char a₂ :: .char a₃ ::
        .char a₄ :: Utf8.pieces t) = _
      rw [unquoteBody?, hvalue]
      simp only [bind, Option.bind, ofCode?_toNat]

theorem unquoteBody?_hex8 (c : Char) (t : Text) :
    unquoteBody? (Utf8.pieces ("\\U" ++ ofHex 8 c.toNat ++ t)) =
      (unquoteBody? (Utf8.pieces t)).map (ofChar c ++ ·) := by
  have hvalid := Utf8.isValidChar_toNat c
  have hroom : 0x110000 ≤ Nat.pow 16 8 := by decide
  obtain ⟨cs, hhex, hlength, hascii, hvalue⟩ :=
    exists_ofHex (n := c.toNat) (by decide : 0 < 8) (by omega)
  match cs, hlength with
  | [a₁, a₂, a₃, a₄, a₅, a₆, a₇, a₈], _ =>
      have hmark : ("\\U" : Text) = [byte '\\', byte 'U'] := rfl
      rw [hhex, hmark, List.append_assoc, pieces_escape (by decide), pieces_ofDigits_append hascii]
      change unquoteBody? (.char '\\' :: .char 'U' :: .char a₁ :: .char a₂ :: .char a₃ ::
        .char a₄ :: .char a₅ :: .char a₆ :: .char a₇ :: .char a₈ :: Utf8.pieces t) = _
      rw [unquoteBody?, hvalue]
      simp only [bind, Option.bind, ofCode?_toNat]

theorem unquoteBody?_mark {c : Char} (h : c = '"' ∨ c = '\\') (t : Text) :
    unquoteBody? (Utf8.pieces ([byte '\\', byte c] ++ t)) =
      (unquoteBody? (Utf8.pieces t)).map (ofChar c ++ ·) := by
  have hascii : c.toNat < 0x80 := by rcases h with rfl | rfl <;> decide
  rw [pieces_escape hascii, ofChar_ascii hascii]
  rw [unquoteBody?.eq_def]
  rcases h with rfl | rfl <;> simp

theorem unquoteBody?_plain {c : Char} (hmark : c ≠ '"') (hslash : c ≠ '\\') (hnewline : c ≠ '\n')
    (t : Text) :
    unquoteBody? (Utf8.pieces (ofChar c ++ t)) =
      (unquoteBody? (Utf8.pieces t)).map (ofChar c ++ ·) := by
  rw [Utf8.pieces_ofChar_append, unquoteBody?]
  · simp [hmark, hslash, hnewline]
  all_goals
    intros
    contradiction

theorem unquoteBody?_letter : ∀ e ∈ letterEscapes, ∀ t : Text,
    unquoteBody? (Utf8.pieces ([byte '\\', byte e.1] ++ t)) =
      (unquoteBody? (Utf8.pieces t)).map (e.2.toUInt8 :: ·) := by
  have hascii : ∀ e ∈ letterEscapes, e.1.toNat < 0x80 := by decide
  intro e he t
  rw [pieces_escape (hascii e he)]
  simp only [letterEscapes, List.mem_cons, List.not_mem_nil, or_false] at he
  rcases he with rfl | rfl | rfl | rfl | rfl | rfl | rfl <;> rfl

theorem not_isPrintable_newline : isPrintable '\n' = false := by decide +kernel

/-- What stands for a piece is read as the piece. -/
theorem unquoteBody?_escapePiece (p : Utf8.Piece) (t : Text) :
    unquoteBody? (Utf8.pieces (escapePiece '"' p ++ t)) =
      (unquoteBody? (Utf8.pieces t)).map (p.bytes ++ ·) := by
  cases p with
  | stray b =>
      have hbyte : b.toNat.toUInt8 = b := UInt8.ofNat_toNat
      have hread := unquoteBody?_hex2 b.toNat_lt t
      rwa [hbyte] at hread
  | char c =>
      change unquoteBody? (Utf8.pieces (escapeChar '"' c ++ t)) = Option.map (ofChar c ++ ·) _
      unfold escapeChar
      split
      · next hmark =>
        rw [Bool.or_eq_true, decide_eq_true_eq, decide_eq_true_eq] at hmark
        exact unquoteBody?_mark hmark t
      · next hmark =>
        rw [Bool.or_eq_true, decide_eq_true_eq, decide_eq_true_eq, not_or] at hmark
        split
        · next hprintable =>
          have hnewline : c ≠ '\n' := by
            rintro rfl
            cases not_isPrintable_newline.symm.trans hprintable
          exact unquoteBody?_plain hmark.1 hmark.2 hnewline t
        · split
          · next letter n hfind =>
            have hmem := List.mem_of_find?_eq_some hfind
            have hcode : n = c.toNat := by simpa using List.find?_some hfind
            have hascii : ∀ e ∈ letterEscapes, e.2 < 0x80 := by decide
            have hread := unquoteBody?_letter _ hmem t
            rw [ofChar_ascii (hcode ▸ hascii _ hmem)]
            rw [hcode] at hread
            exact hread
          · split
            · next hcontrol =>
              rw [Bool.or_eq_true, decide_eq_true_eq, decide_eq_true_eq] at hcontrol
              rw [ofChar_ascii (by omega)]
              exact unquoteBody?_hex2 (by omega) t
            · split
              · next hlow => exact unquoteBody?_hex4 hlow t
              · exact unquoteBody?_hex8 c t

/-! ## Quoted texts -/

theorem unquoteBody?_escaped (ps : List Utf8.Piece) :
    unquoteBody? (Utf8.pieces (ps.flatMap (escapePiece '"') ++ [byte '"'])) =
      some (Utf8.ofPieces ps) := by
  induction ps with
  | nil => rfl
  | cons p ps ih =>
      rw [List.flatMap_cons, List.append_assoc, unquoteBody?_escapePiece, ih]
      rfl

/-- A quoted text stands for the text, whatever bytes are in it. -/
theorem unquote?_quote (t : Text) : unquote? (quote t) = some t := by
  rw [unquote?, quote, pieces_byte_cons (by decide)]
  change unquoteBody? _ = _
  rw [unquoteBody?_escaped, Utf8.ofPieces_pieces]

theorem isTrimmed_quote (t : Text) : (quote t).isTrimmed = true := by
  have hblank : (Utf8.Piece.char '"').isBlank = false := by decide
  have hpieces : Utf8.pieces (quote t) =
      .char '"' :: (Utf8.pieces ((Utf8.pieces t).flatMap (escapePiece '"')) ++ [.char '"']) := by
    rw [quote, pieces_byte_cons (by decide), Utf8.pieces_append (by decide),
      pieces_byte_cons (by decide)]
    rfl
  rw [isTrimmed_iff, hpieces]
  refine ⟨List.cons_ne_nil _ _, ?_, ?_⟩
  · rintro p ⟨⟩
    exact hblank
  · rw [← List.cons_append, List.getLast?_concat]
    rintro p ⟨⟩
    exact hblank

end OperandStack.Text
