import OperandStack.Descriptor.Method

/-!
# The grammar of descriptors

A field type is at most 255 array marks and an element type, which is a primitive code or a class
name between `L` and a semicolon. A class name may hold any byte but a semicolon, parentheses and
array marks included. A method descriptor is the field types of the parameters in parentheses and
a result, a field type or void.

The grammar is written down here without the readers, and the readers are held to it in both
directions: what they take off the front of a text is derived by the grammar, and whatever the
grammar derives is taken off, however the text goes on. Every text therefore has at most one
decomposition, and reading and writing method descriptors are inverse to each other.
-/

namespace OperandStack

theorem Text.cut?_eq_some_iff {b : UInt8} {t s u : Text} :
    cut? b t = some (s, u) ↔ b ∉ s ∧ t = s ++ b :: u := by
  constructor
  · intro h
    refine ⟨?_, (FieldType.append_of_cut? h).symm⟩
    induction t generalizing s u with
    | nil => simp [cut?] at h
    | cons a t ih =>
        simp only [cut?] at h
        split at h
        · cases h
          simp
        · next hne =>
          obtain ⟨⟨s', u'⟩, hcut, hmade⟩ := Option.map_eq_some_iff.1 h
          cases hmade
          simp only [List.mem_cons, not_or]
          exact ⟨fun heq => hne heq.symm, ih hcut⟩
  · rintro ⟨hmem, rfl⟩
    induction s with
    | nil => simp [cut?]
    | cons a s ih =>
        simp only [List.mem_cons, not_or] at hmem
        rw [List.cons_append, cut?, if_neg (Ne.symm hmem.1), ih hmem.2]
        rfl

namespace FieldType

inductive Element : Text → Prop
  | primitive {c : UInt8} : c ∈ ("BCDFIJSZ" : Text) → Element [c]
  | reference {name : Text} : name ≠ [] → Text.byte ';' ∉ name →
      Element (Text.byte 'L' :: (name ++ [Text.byte ';']))

/-- Field types: an element type behind at most 255 array marks. -/
def WellFormed (sig : Text) : Prop :=
  ∃ (dims : Nat) (element : Text), dims ≤ 255 ∧ Element element ∧
    sig = List.replicate dims (Text.byte '[') ++ element

theorem Element.exists_cons {element : Text} (h : Element element) :
    ∃ c tail, element = c :: tail ∧ c ≠ Text.byte '[' ∧ c ≠ Text.byte ')' := by
  cases h with
  | @primitive c hc =>
      have hcodes : ∀ c ∈ ("BCDFIJSZ" : Text), c ≠ Text.byte '[' ∧ c ≠ Text.byte ')' := by
        decide +kernel
      exact ⟨c, [], rfl, hcodes c hc⟩
  | reference _ _ => exact ⟨_, _, rfl, by decide, by decide⟩

theorem WellFormed.exists_cons {sig : Text} (h : WellFormed sig) :
    ∃ c tail, sig = c :: tail ∧ c ≠ Text.byte ')' := by
  obtain ⟨dims, element, -, helement, rfl⟩ := h
  cases dims with
  | zero =>
      obtain ⟨c, tail, rfl, -, hc⟩ := helement.exists_cons
      exact ⟨c, tail, rfl, hc⟩
  | succ dims => exact ⟨_, _, rfl, by decide⟩

theorem splitElement_eq_ok_iff {dims t field rest : Text} :
    splitElement dims t = .ok (field, rest) ↔
      ∃ element, Element element ∧ field = dims ++ element ∧ t = element ++ rest := by
  constructor
  · intro h
    unfold splitElement at h
    split at h
    · cases h
    · next c tail =>
      split at h
      · next hc =>
        cases h
        exact ⟨[c], .primitive (List.contains_iff_mem.1 hc), rfl, rfl⟩
      · split at h
        · next hc =>
          subst hc
          split at h
          · cases h
          · cases h
          · next name after hname hcut =>
            cases h
            obtain ⟨hmem, rfl⟩ := Text.cut?_eq_some_iff.1 hcut
            exact ⟨_, .reference hname hmem, by simp, by simp⟩
        · cases h
  · rintro ⟨element, helement, rfl, rfl⟩
    cases helement with
    | primitive hc => simp [splitElement, isPrimitiveCode, primitiveCodes, hc]
    | @reference name hname hmem =>
        have hcut : Text.cut? (Text.byte ';') (name ++ Text.byte ';' :: rest) = some (name, rest) :=
          Text.cut?_eq_some_iff.2 ⟨hmem, rfl⟩
        have hcode : isPrimitiveCode (Text.byte 'L') = false := by decide
        simp [splitElement, hcode, hcut]

theorem marks_eq (t : Text) :
    t.takeWhile (· = Text.byte '[') =
      List.replicate (t.takeWhile (· = Text.byte '[')).length (Text.byte '[') := by
  rw [List.eq_replicate_iff]
  exact ⟨rfl, fun b hb => by simpa using List.all_eq_true.1 List.all_takeWhile b hb⟩

theorem span_marks {element : Text} (h : Element element) (dims : Nat) (rest : Text) :
    (List.replicate dims (Text.byte '[') ++ (element ++ rest)).takeWhile (· = Text.byte '[') =
        List.replicate dims (Text.byte '[') ∧
      (List.replicate dims (Text.byte '[') ++ (element ++ rest)).dropWhile (· = Text.byte '[') =
        element ++ rest := by
  obtain ⟨c, tail, rfl, hc, -⟩ := h.exists_cons
  induction dims with
  | zero => simp [hc]
  | succ dims ih => simpa [List.replicate_succ] using ih

/-- Reading takes a field type off exactly the texts that start with one. -/
theorem split_eq_ok_iff {t field rest : Text} :
    split t = .ok (field, rest) ↔ WellFormed field ∧ t = field ++ rest := by
  constructor
  · intro h
    unfold split at h
    simp only at h
    split at h
    · cases h
    · next hdims =>
      obtain ⟨element, helement, rfl, hbody⟩ := splitElement_eq_ok_iff.1 h
      refine ⟨⟨_, element, Nat.not_lt.1 hdims, helement, congrArg (· ++ element) (marks_eq t)⟩, ?_⟩
      rw [List.append_assoc, ← hbody]
      exact List.takeWhile_append_dropWhile.symm
  · rintro ⟨⟨dims, element, hdims, helement, rfl⟩, rfl⟩
    obtain ⟨htake, hdrop⟩ := span_marks helement dims rest
    have hmax : ¬ maxDimensions < dims := by simpa [maxDimensions] using hdims
    simp only [split, List.append_assoc, htake, hdrop, List.length_replicate, hmax, ↓reduceIte]
    exact splitElement_eq_ok_iff.2 ⟨element, helement, rfl, rfl⟩

theorem validate_eq_ok_iff {sig : Text} : validate sig = .ok () ↔ WellFormed sig := by
  constructor
  · intro h
    unfold validate at h
    split at h
    · cases h
    · next field hsplit =>
      obtain ⟨hfield, rfl⟩ := split_eq_ok_iff.1 hsplit
      simpa using hfield
    · cases h
  · intro h
    have hsplit : split sig = .ok (sig, []) := split_eq_ok_iff.2 ⟨h, by simp⟩
    simp only [validate, hsplit]

instance (sig : Text) : Decidable (WellFormed sig) :=
  match h : validate sig with
  | .ok () => .isTrue (validate_eq_ok_iff.1 h)
  | .error _ => .isFalse fun hsig => by
      rw [validate_eq_ok_iff.2 hsig] at h
      cases h

end FieldType

namespace MethodDescriptor

/-- Parts that the grammar allows: field types as parameters, and a field type or void as the
result. -/
structure WellFormed (m : MethodDescriptor) : Prop where
  params : ∀ p ∈ m.params, FieldType.WellFormed p
  result : FieldType.WellFormed m.result ∨ m.result = "V"

instance (m : MethodDescriptor) : Decidable m.WellFormed :=
  decidable_of_iff
    ((∀ p ∈ m.params, FieldType.WellFormed p) ∧
      (FieldType.WellFormed m.result ∨ m.result = "V"))
    ⟨fun h => ⟨h.1, h.2⟩, fun h => ⟨h.params, h.result⟩⟩

theorem splitParams_sound {t : Text} {params : List Text} {rest : Text}
    (h : splitParams t = .ok (params, rest)) :
    (∀ p ∈ params, FieldType.WellFormed p) ∧ t = params.flatten ++ Text.byte ')' :: rest := by
  fun_induction splitParams t generalizing params rest with
  | case1 => cases h
  | case2 tail =>
      cases h
      exact ⟨by simp, by simp⟩
  | case3 b tail hb fault hsplit => cases h
  | case4 b tail hb field after hsplit fault hparams ih => cases h
  | case5 b tail hb field after hsplit fields rest' hparams ih =>
      cases h
      obtain ⟨hfield, htext⟩ := FieldType.split_eq_ok_iff.1 hsplit
      obtain ⟨hfields, rfl⟩ := ih hparams
      refine ⟨?_, by simp [htext]⟩
      intro p hp
      rcases List.mem_cons.1 hp with rfl | hp
      · exact hfield
      · exact hfields p hp

/-- Reading goes on behind complete parameters as it would at the start. -/
theorem splitParams_append {params : List Text}
    (hparams : ∀ p ∈ params, FieldType.WellFormed p) (t : Text) :
    splitParams (params.flatten ++ t) =
      match splitParams t with
      | .error fault => .error (fault.shift params.flatten.length)
      | .ok (fields, after) => .ok (params ++ fields, after) := by
  induction params with
  | nil => cases hread : splitParams t <;> simp [hread, DescriptorFault.shift]
  | cons p params ih =>
      obtain ⟨hp, hrest⟩ := List.forall_mem_cons.1 hparams
      obtain ⟨c, tail, rfl, hc⟩ := hp.exists_cons
      have hsplit : FieldType.split (c :: (tail ++ (params.flatten ++ t))) =
          .ok (c :: tail, params.flatten ++ t) :=
        FieldType.split_eq_ok_iff.2 ⟨hp, rfl⟩
      -- A field type does not start with the parenthesis that ends the parameters.
      rw [List.flatten_cons, List.append_assoc, List.cons_append, splitParams, if_neg hc]
      split
      · next hfault => rw [hsplit] at hfault; cases hfault
      · next hfield =>
        rw [hsplit] at hfield
        cases hfield
        rw [ih hrest]
        cases splitParams t with
        | error fault =>
            simp only [DescriptorFault.shift, List.length_append, Nat.add_assoc]
        | ok found => rfl

theorem splitParams_complete {params : List Text} (h : ∀ p ∈ params, FieldType.WellFormed p)
    (rest : Text) : splitParams (params.flatten ++ Text.byte ')' :: rest) = .ok (params, rest) := by
  have hclose : splitParams (Text.byte ')' :: rest) = .ok ([], rest) := by simp [splitParams]
  rw [splitParams_append h, hclose]
  simp

theorem checkResult_eq_ok_iff {t : Text} :
    checkResult t = .ok () ↔ FieldType.WellFormed t ∨ t = "V" := by
  constructor
  · intro h
    unfold checkResult at h
    split at h
    · cases h
    · split at h
      · next hv => exact .inr hv
      · split at h
        · cases h
        · next field hsplit =>
          obtain ⟨hfield, rfl⟩ := FieldType.split_eq_ok_iff.1 hsplit
          exact .inl (by simpa using hfield)
        · cases h
  · rintro (h | rfl)
    · obtain ⟨c, tail, rfl, -⟩ := h.exists_cons
      have hsplit : FieldType.split (c :: tail) = .ok (c :: tail, []) :=
        FieldType.split_eq_ok_iff.2 ⟨h, by simp⟩
      simp [checkResult, hsplit]
    · rfl

theorem toText_eq_cons (m : MethodDescriptor) :
    m.toText = Text.byte '(' :: (m.params.flatten ++ Text.byte ')' :: m.result) := by
  have hopen : ("(" : Text) = [Text.byte '('] := by decide
  have hclose : (")" : Text) = [Text.byte ')'] := by decide
  simp only [toText, hopen, hclose, List.append_assoc, List.cons_append, List.nil_append]

/-- Reading accepts the texts of well-formed descriptors, and gives back their parts. -/
theorem parse_eq_ok_iff {desc : Text} {m : MethodDescriptor} :
    parse desc = .ok m ↔ m.WellFormed ∧ desc = m.toText := by
  constructor
  · intro h
    unfold parse at h
    split at h
    · cases h
    · next b t =>
      split at h
      · cases h
      · next hb =>
        split at h
        · cases h
        · next params result hparams =>
          split at h
          · cases h
          · next hresult =>
            cases h
            obtain ⟨hfields, rfl⟩ := splitParams_sound hparams
            refine ⟨⟨hfields, checkResult_eq_ok_iff.1 hresult⟩, ?_⟩
            rw [Decidable.not_not.1 hb, toText_eq_cons]
  · rintro ⟨h, rfl⟩
    have hparams := splitParams_complete h.params m.result
    have hresult := checkResult_eq_ok_iff.2 h.result
    simp [parse, toText_eq_cons, hparams, hresult]

/-- Method descriptors are read exactly as the grammar writes them: each text has at most one
decomposition, which is what reading gives, and field types are validated by the same grammar. -/
theorem parse_follows_grammar :
    (∀ (desc : Text) (params : List Text) (result : Text),
      parse desc = .ok ⟨params, result⟩ ↔
        desc = "(" ++ params.flatten ++ ")" ++ result ∧
          (∀ p ∈ params, FieldType.WellFormed p) ∧
          (FieldType.WellFormed result ∨ result = "V")) ∧
    (∀ m n : MethodDescriptor, m.WellFormed → n.WellFormed → m.toText = n.toText → m = n) ∧
    (∀ (desc : Text) (m : MethodDescriptor), parse desc = .ok m → m.toText = desc) ∧
    (∀ m : MethodDescriptor, m.WellFormed → parse m.toText = .ok m) ∧
    (∀ sig : Text, FieldType.validate sig = .ok () ↔ FieldType.WellFormed sig) := by
  refine ⟨?_, ?_, ?_, ?_, fun sig => FieldType.validate_eq_ok_iff⟩
  · intro desc params result
    rw [parse_eq_ok_iff]
    constructor
    · rintro ⟨h, rfl⟩
      exact ⟨rfl, h.params, h.result⟩
    · rintro ⟨rfl, hparams, hresult⟩
      exact ⟨⟨hparams, hresult⟩, rfl⟩
  · intro m n hm hn htext
    have hread : parse m.toText = .ok m := parse_eq_ok_iff.2 ⟨hm, rfl⟩
    rw [parse_eq_ok_iff.2 ⟨hn, htext⟩] at hread
    exact (Except.ok.inj hread).symm
  · intro desc m h
    exact (parse_eq_ok_iff.1 h).2.symm
  · intro m h
    exact parse_eq_ok_iff.2 ⟨h, rfl⟩

/-- A class name may look like the rest of a descriptor. -/
theorem parse_follows_grammar_odd_name :
    (MethodDescriptor.mk ["[[I", "L)V([;"] "V").WellFormed ∧
      parse "([[IL)V([;)V" = .ok ⟨["[[I", "L)V([;"], "V"⟩ ∧
      ("([[IL)V([;)V" : Text) = toText ⟨["[[I", "L)V([;"], "V"⟩ := by
  have hparts : (MethodDescriptor.mk ["[[I", "L)V([;"] "V").WellFormed := by decide +kernel
  have hread := parse_follows_grammar.2.2.2.1 _ hparts
  exact ⟨hparts, hread, (parse_follows_grammar.2.2.1 _ _ hread).symm⟩

end MethodDescriptor

end OperandStack
