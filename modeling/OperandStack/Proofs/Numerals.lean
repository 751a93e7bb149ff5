import OperandStack.Proofs.Pieces
import OperandStack.Text.Numeral

/-!
# Decimal notation

A number in decimal notation is a word, with a digit at its end and nothing but digits behind its
sign. It is read as the number again if it is in range (`Numeral.readInt_ofInt`).
-/

namespace OperandStack

/-! ## Reading digits -/

theorem Text.toNat_byte {c : Char} (h : c.toNat < 256) : (Text.byte c).toNat = c.toNat :=
  Utf8.toNat_byte h

namespace Numeral

variable {base bits n : Nat} {t : Text} {b : UInt8}

theorem readDigits_append (base bits n : Nat) (s t : Text) :
    readDigits base bits n (s ++ t) =
      (readDigits base bits n s).bind fun m => readDigits base bits m t := by
  induction s generalizing n with
  | nil => rfl
  | cons b s ih =>
      simp only [List.cons_append, readDigits]
      split
      · split
        · rfl
        split
        · rfl
        · exact ih _
      · rfl

theorem digit?_digitChar : ∀ d < 10, digit? (Text.byte (Nat.digitChar d)) = some d := by decide

/-- The digits of a number are read as the number, if it is in range. -/
theorem readDigits_ofNat (h : n < Nat.pow 2 bits) :
    readDigits 10 bits 0 (Text.ofNat n) = .ok n := by
  induction n using Nat.strongRecOn with
  | _ n ih =>
      have hstep (m d : Nat) (hd : d < 10) (hlt : m * 10 + d < Nat.pow 2 bits) :
          readDigits 10 bits m [Text.byte (Nat.digitChar d)] = .ok (m * 10 + d) := by
        simp only [readDigits, digit?_digitChar d hd]
        rw [if_neg (by omega), if_neg (by omega)]
      rw [Text.ofNat, Nat.toDigits_eq_if (by decide)]
      split
      · next hlt =>
        have hone := hstep 0 n hlt (by omega)
        rwa [Nat.zero_mul, Nat.zero_add] at hone
      · next hge =>
        have hfront := ih (n / 10) (by omega) (by omega)
        rw [Text.ofDigits, List.map_append, readDigits_append]
        change (readDigits 10 bits 0 (Text.ofNat (n / 10))).bind _ = _
        rw [hfront]
        have hlast := hstep (n / 10) (n % 10) (by omega) (by omega)
        have hsum : n / 10 * 10 + n % 10 = n := by omega
        rwa [hsum] at hlast

theorem isDigit_iff : isDigit b = true ↔ 48 ≤ b.toNat ∧ b.toNat ≤ 57 := by
  simp [isDigit, UInt8.le_iff_toNat_le]

theorem isDigit_of_mem_ofNat (h : b ∈ Text.ofNat n) : isDigit b = true := by
  obtain ⟨c, hc, rfl⟩ := List.mem_map.1 h
  have hdigit := Nat.isDigit_of_mem_toDigits (by decide) (by decide) hc
  simp only [Char.isDigit, ge_iff_le, Bool.and_eq_true, decide_eq_true_eq,
    UInt32.le_iff_toNat_le] at hdigit
  change 48 ≤ c.toNat ∧ c.toNat ≤ 57 at hdigit
  rw [isDigit_iff, Text.toNat_byte (by omega)]
  exact hdigit

theorem ofNat_ne_nil (n : Nat) : Text.ofNat n ≠ [] := by
  simp [Text.ofNat, Text.ofDigits]

theorem readUnsigned_ofNat (h : n < Nat.pow 2 bits) :
    readUnsigned bits (Text.ofNat n) = .ok n := by
  rw [readUnsigned, if_neg (by simp [ofNat_ne_nil]), readDigits_ofNat h]

theorem splitSign_ofNat (n : Nat) : splitSign (Text.ofNat n) = (false, Text.ofNat n) := by
  cases h : Text.ofNat n with
  | nil => rfl
  | cons b t =>
      have hdigit : isDigit b = true := isDigit_of_mem_ofNat (n := n) (h ▸ List.mem_cons_self)
      have hne (k : UInt8) (hk : isDigit k = false) : b ≠ k := by
        rintro rfl
        cases hdigit.symm.trans hk
      rw [splitSign, if_neg (hne _ (by decide)), if_neg (hne _ (by decide))]

/-- Decimal notation is read back. -/
theorem readInt_ofInt {n : Int} (hbits : 0 < bits) (hlo : -(Nat.pow 2 (bits - 1) : Nat) ≤ n)
    (hhi : n < (Nat.pow 2 (bits - 1) : Nat)) : readInt bits (Text.ofInt n) = .ok n := by
  have hpow : Nat.pow 2 (bits - 1) < Nat.pow 2 bits :=
    Nat.pow_lt_pow_right (by decide) (by omega)
  cases n with
  | ofNat n =>
      have hlt : n < Nat.pow 2 (bits - 1) := Int.ofNat_lt.1 hhi
      have hread : readUnsigned bits (Text.ofNat n) = .ok n := readUnsigned_ofNat (by omega)
      rw [Text.ofInt, readInt, splitSign_ofNat]
      simp only [hread, bind, Except.bind, withSign, Bool.false_eq_true, if_false, if_pos hlt]
      rfl
  | negSucc n =>
      have hle : n + 1 ≤ Nat.pow 2 (bits - 1) := by omega
      have hread : readUnsigned bits (Text.ofNat (n + 1)) = .ok (n + 1) :=
        readUnsigned_ofNat (by omega)
      have hsign : splitSign (Text.byte '-' :: Text.ofNat (n + 1)) = (true, Text.ofNat (n + 1)) :=
        rfl
      rw [Text.ofInt, readInt, hsign]
      simp only [hread, bind, Except.bind, withSign, if_true, if_pos hle]
      rfl

theorem int?_ofInt {n : Int} (hlo : -9223372036854775808 ≤ n) (hhi : n < 9223372036854775808) :
    int? (Text.ofInt n) = some n := by
  rw [int?, readInt_ofInt (by decide) hlo hhi]
  rfl

end Numeral

/-! ## Numbers as words -/

namespace Text

variable {n : Int} {b : UInt8}

theorem mem_ofInt (h : b ∈ ofInt n) : b = byte '-' ∨ Numeral.isDigit b = true := by
  cases n with
  | ofNat n => exact .inr (Numeral.isDigit_of_mem_ofNat h)
  | negSucc n =>
      rcases List.mem_cons.1 h with h | h
      · exact .inl h
      · exact .inr (Numeral.isDigit_of_mem_ofNat h)

theorem getLast?_ofInt (n : Int) : ∃ b, (ofInt n).getLast? = some b ∧ Numeral.isDigit b = true := by
  have hnat (n : Nat) : ∃ b, (ofNat n).getLast? = some b ∧ Numeral.isDigit b = true := by
    have hne := Numeral.ofNat_ne_nil n
    exact ⟨_, List.getLast?_eq_some_getLast hne,
      Numeral.isDigit_of_mem_ofNat (List.getLast_mem hne)⟩
  cases n with
  | ofNat n => exact hnat n
  | negSucc n =>
      obtain ⟨b, hb, hdigit⟩ := hnat (n + 1)
      exact ⟨b, by rw [ofInt, List.getLast?_cons, hb]; rfl, hdigit⟩

theorem ofInt_ne_nil (n : Int) : ofInt n ≠ [] := by
  obtain ⟨b, hb, -⟩ := getLast?_ofInt n
  exact List.ne_nil_of_mem (List.mem_of_getLast? hb)

/-- A text of printing ASCII bytes is a word. -/
theorem isWord_of_graphic {t : Text} (hne : t ≠ [])
    (h : ∀ b ∈ t, 0x21 ≤ b.toNat ∧ b.toNat ≤ 0x7E) : t.isWord = true := by
  rw [isWord_iff]
  refine ⟨hne, ?_⟩
  clear hne
  induction t with
  | nil => exact List.forall_mem_nil _
  | cons b t ih =>
      obtain ⟨hb, hrest⟩ := List.forall_mem_cons.1 h
      have hchar : (Char.ofNat b.toNat).toNat = b.toNat := Utf8.toNat_ofNat (.inl (by omega))
      have hascii : b < 0x80 := UInt8.lt_iff_toNat_lt.2 (Nat.lt_succ_of_le (by omega))
      rw [Utf8.pieces_ascii hascii]
      refine List.forall_mem_cons.2 ⟨?_, ih hrest⟩
      simp only [Utf8.Piece.isBlank, isBlank, blankRanges, hchar, List.any_cons, List.any_nil]
      simp
      omega

theorem isWord_ofInt (n : Int) : (ofInt n).isWord = true := by
  refine isWord_of_graphic (ofInt_ne_nil n) fun b hb => ?_
  rcases mem_ofInt hb with rfl | hdigit
  · decide
  · rw [Numeral.isDigit_iff] at hdigit
    omega

end Text

end OperandStack
