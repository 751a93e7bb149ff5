import OperandStack.Proofs.DescriptorGrammar

/-!
# Offsets of descriptor faults

A refusal names the text it is about and an offset in it. What stands before the offset is the
beginning of some descriptor (`Viable`), however the rest of the text went wrong: a field type is
refused at its start, behind its array marks or behind its end, and each of these can be completed.
The offset is not too far to the front either, as all parameters that are complete stand before it.
-/

namespace OperandStack

namespace DescriptorFault

/-- The fault shows in a text behind the given beginning of it. -/
structure ShowsBehind (fault : DescriptorFault) (front t : Text) : Prop where
  isPrefix : front <+: t
  offset : fault.offset = front.length

variable {fault : DescriptorFault} {front t : Text}

theorem ShowsBehind.shift (h : fault.ShowsBehind front t) (more : Text) :
    (fault.shift more.length).ShowsBehind (more ++ front) (more ++ t) where
  isPrefix := (List.prefix_append_right_inj more).2 h.isPrefix
  offset := by rw [DescriptorFault.shift, h.offset, List.length_append]

theorem ShowsBehind.offset_le (h : fault.ShowsBehind front t) : fault.offset ≤ t.length := by
  rw [h.offset]
  exact h.isPrefix.length_le

theorem ShowsBehind.take_eq (h : fault.ShowsBehind front t) : t.take fault.offset = front := by
  rw [h.offset]
  exact (List.prefix_iff_eq_take.1 h.isPrefix).symm

end DescriptorFault

/-! ## Field types -/

namespace FieldType

/-- The beginning of a field type. -/
def Viable (t : Text) : Prop := ∃ sig, WellFormed sig ∧ t <+: sig

theorem WellFormed.viable {sig : Text} (h : WellFormed sig) : Viable sig :=
  ⟨sig, h, List.prefix_rfl⟩

theorem viable_marks {dims : Nat} (h : dims ≤ 255) :
    Viable (List.replicate dims (Text.byte '[')) :=
  ⟨_, ⟨dims, [Text.byte 'I'], h, .primitive (by decide), rfl⟩, List.prefix_append _ _⟩

theorem splitElement_fault {dims t : Text} {fault : DescriptorFault}
    (h : splitElement dims t = .error fault) : fault.offset = dims.length := by
  unfold splitElement at h
  repeat' split at h
  all_goals cases h
  all_goals rfl

/-- A field type is refused at its start or behind its array marks. -/
theorem split_fault {t : Text} {fault : DescriptorFault} (h : split t = .error fault) :
    ∃ front, Viable front ∧ fault.ShowsBehind front t := by
  unfold split at h
  dsimp only at h
  split at h
  · cases h
    exact ⟨[], viable_marks (Nat.zero_le _), List.nil_prefix, rfl⟩
  · next hdims =>
    refine ⟨_, ?_, List.takeWhile_prefix _, splitElement_fault h⟩
    rw [marks_eq]
    exact viable_marks (Nat.not_lt.1 hdims)

theorem validate_fault {sig : Text} {e : DescriptorError} (h : validate sig = .error e) :
    e.descriptor = sig ∧ ∃ front, Viable front ∧ e.fault.ShowsBehind front sig := by
  unfold validate at h
  split at h
  · next fault hsplit =>
    cases h
    exact ⟨rfl, split_fault hsplit⟩
  · cases h
  · next field b rest hsplit =>
    cases h
    obtain ⟨hfield, htext⟩ := split_eq_ok_iff.1 hsplit
    refine ⟨rfl, field, hfield.viable, ?_, rfl⟩
    rw [htext]
    exact List.prefix_append _ _

theorem validate_fault_offset {sig field : Text} {e : DescriptorError}
    (h : validate sig = .error e) (hfield : WellFormed field) (hstart : field <+: sig) :
    e.fault.offset = field.length := by
  obtain ⟨rest, rfl⟩ := hstart
  have hsplit : split (field ++ rest) = .ok (field, rest) := split_eq_ok_iff.2 ⟨hfield, rfl⟩
  unfold validate at h
  rw [hsplit] at h
  cases rest with
  | nil => cases h
  | cons b rest =>
      cases h
      rfl

end FieldType

/-! ## Method descriptors -/

namespace MethodDescriptor

/-- The beginning of a method descriptor. -/
def Viable (t : Text) : Prop := ∃ m : MethodDescriptor, m.WellFormed ∧ t <+: m.toText

variable {params : List Text} {t front : Text} {fault : DescriptorFault}

theorem viable_nil : Viable [] := ⟨⟨[], "V"⟩, by decide +kernel, List.nil_prefix⟩

theorem viable_params (hparams : ∀ p ∈ params, FieldType.WellFormed p)
    (hfront : FieldType.Viable front) : Viable (Text.byte '(' :: (params.flatten ++ front)) := by
  obtain ⟨sig, hsig, hstart⟩ := hfront
  refine ⟨⟨params ++ [sig], "V"⟩, ⟨?_, .inr rfl⟩, ?_⟩
  · intro p hp
    rcases List.mem_append.1 hp with hp | hp
    · exact hparams p hp
    · rw [List.mem_singleton.1 hp]
      exact hsig
  · rw [toText_eq_cons, List.flatten_append, List.flatten_singleton, List.append_assoc]
    apply (List.prefix_cons_inj _).2
    apply (List.prefix_append_right_inj _).2
    exact hstart.trans (List.prefix_append _ _)

theorem viable_result (hparams : ∀ p ∈ params, FieldType.WellFormed p)
    (hfront : FieldType.Viable front) :
    Viable (Text.byte '(' :: (params.flatten ++ Text.byte ')' :: front)) := by
  obtain ⟨sig, hsig, hstart⟩ := hfront
  refine ⟨⟨params, sig⟩, ⟨hparams, .inl hsig⟩, ?_⟩
  rw [toText_eq_cons]
  apply (List.prefix_cons_inj _).2
  apply (List.prefix_append_right_inj _).2
  exact (List.prefix_cons_inj _).2 hstart

/-- Parameters are refused behind some that are complete. -/
theorem splitParams_fault (h : splitParams t = .error fault) :
    ∃ (params : List Text) (front : Text), (∀ p ∈ params, FieldType.WellFormed p) ∧
      FieldType.Viable front ∧ fault.ShowsBehind (params.flatten ++ front) t := by
  fun_induction splitParams t generalizing fault with
  | case1 =>
      cases h
      exact ⟨[], [], List.forall_mem_nil _, FieldType.viable_marks (Nat.zero_le _),
        List.nil_prefix, rfl⟩
  | case2 tail => cases h
  | case3 b tail hb fault' hsplit =>
      cases h
      obtain ⟨front, hfront, hshows⟩ := FieldType.split_fault hsplit
      exact ⟨[], front, List.forall_mem_nil _, hfront, hshows⟩
  | case4 b tail hb field after hsplit fault' hparams ih =>
      cases h
      obtain ⟨hfield, htext⟩ := FieldType.split_eq_ok_iff.1 hsplit
      obtain ⟨params, front, hfields, hfront, hshows⟩ := ih hparams
      refine ⟨field :: params, front, List.forall_mem_cons.2 ⟨hfield, hfields⟩, hfront, ?_⟩
      rw [htext, List.flatten_cons, List.append_assoc]
      exact hshows.shift field
  | case5 b tail hb field after hsplit fields rest hparams ih => cases h

theorem checkResult_fault (h : checkResult t = .error fault) :
    ∃ front, FieldType.Viable front ∧ fault.ShowsBehind front t := by
  unfold checkResult at h
  split at h
  · cases h
    exact ⟨[], FieldType.viable_marks (Nat.zero_le _), List.nil_prefix, rfl⟩
  · split at h
    · cases h
    · split at h
      · next hsplit =>
        cases h
        exact FieldType.split_fault hsplit
      · cases h
      · next field b rest hsplit =>
        cases h
        obtain ⟨hfield, htext⟩ := FieldType.split_eq_ok_iff.1 hsplit
        refine ⟨field, hfield.viable, ?_, rfl⟩
        rw [htext]
        exact List.prefix_append _ _

/-- The ways in which a descriptor is refused: it does not open, or its parameters are refused, or
they are complete and its result is refused. -/
theorem parse_fault {desc : Text} {e : DescriptorError} (h : parse desc = .error e) :
    e.descriptor = desc ∧
      (e.fault.offset = 0 ∧ desc.head? ≠ some (Text.byte '(') ∨
        (∃ t fault, desc = Text.byte '(' :: t ∧ splitParams t = .error fault ∧
          e.fault = fault.shift 1) ∨
        ∃ t params result fault, desc = Text.byte '(' :: t ∧ splitParams t = .ok (params, result) ∧
          checkResult result = .error fault ∧
          e.fault = fault.shift (desc.length - result.length)) := by
  unfold parse at h
  dsimp only at h
  split at h
  · cases h
    exact ⟨rfl, .inl ⟨rfl, by rintro ⟨⟩⟩⟩
  · next b t =>
    split at h
    · next hb =>
      cases h
      exact ⟨rfl, .inl ⟨rfl, fun hhead => hb (Option.some.inj hhead)⟩⟩
    · next hb =>
      rw [Decidable.not_not.1 hb] at h ⊢
      split at h
      · next fault hparams =>
        cases h
        exact ⟨rfl, .inr (.inl ⟨t, fault, rfl, hparams, rfl⟩)⟩
      · next params result hparams =>
        split at h
        · next fault hresult =>
          cases h
          exact ⟨rfl, .inr (.inr ⟨t, params, result, fault, rfl, hparams, hresult, rfl⟩)⟩
        · cases h

/-- Up to the offset of a fault a descriptor can be completed. -/
theorem exists_viable {desc : Text} {e : DescriptorError} (h : parse desc = .error e) :
    ∃ front, Viable front ∧ e.fault.ShowsBehind front desc := by
  obtain ⟨-, ⟨hzero, -⟩ | ⟨t, fault, rfl, hparams, hfault⟩ |
    ⟨t, params, result, fault, rfl, hparams, hresult, hfault⟩⟩ := parse_fault h
  · exact ⟨[], viable_nil, List.nil_prefix, hzero⟩
  · obtain ⟨params, front, hfields, hfront, hshows⟩ := splitParams_fault hparams
    rw [hfault]
    exact ⟨_, viable_params hfields hfront, hshows.shift [Text.byte '(']⟩
  · obtain ⟨hfields, rfl⟩ := splitParams_sound hparams
    obtain ⟨front, hfront, hshows⟩ := checkResult_fault hresult
    refine ⟨_, viable_result hfields hfront, ?_⟩
    -- What stands before the result is as long as the text without the result.
    have hbefore := hshows.shift (Text.byte '(' :: (params.flatten ++ [Text.byte ')']))
    have hlength : (Text.byte '(' :: (params.flatten ++ Text.byte ')' :: result)).length -
        result.length = (Text.byte '(' :: (params.flatten ++ [Text.byte ')'])).length := by
      simp only [List.length_cons, List.length_append, List.length_nil]
      omega
    rw [hfault, hlength]
    simpa using hbefore

theorem length_params_lt_offset {desc : Text} {e : DescriptorError} (h : parse desc = .error e)
    (hparams : ∀ p ∈ params, FieldType.WellFormed p)
    (hstart : Text.byte '(' :: params.flatten <+: desc) :
    params.flatten.length < e.fault.offset := by
  obtain ⟨rest, rfl⟩ := hstart
  rw [List.cons_append] at h
  have hread := splitParams_append hparams rest
  obtain ⟨-, ⟨-, hopen⟩ | ⟨t, fault, htext, hfields, hfault⟩ |
    ⟨t, fields, result, fault, htext, hfields, -, hfault⟩⟩ := parse_fault h
  · exact absurd rfl hopen
  · obtain rfl := List.tail_eq_of_cons_eq htext
    rw [hfields] at hread
    split at hread
    · next fault' _ =>
      cases hread
      rw [hfault]
      simp only [DescriptorFault.shift]
      omega
    · cases hread
  · obtain rfl := List.tail_eq_of_cons_eq htext
    rw [hfields] at hread
    split at hread
    · cases hread
    · next fields' after hrest =>
      cases hread
      obtain ⟨-, rfl⟩ := splitParams_sound hrest
      rw [hfault]
      simp only [DescriptorFault.shift, List.length_append, List.length_cons]
      omega

end MethodDescriptor

/-! ## Main results -/

/-- A refused descriptor is named by the refusal, which points into it. Up to there it can be
completed to a descriptor, and all complete parameters stand before that point. Likewise for field
types, where a complete one ends at that point. -/
theorem refusals_point_behind_viable_text :
    (∀ (desc : Text) (e : DescriptorError), MethodDescriptor.parse desc = .error e →
      e.descriptor = desc ∧ e.fault.offset ≤ desc.length ∧
        (∃ m : MethodDescriptor, m.WellFormed ∧ desc.take e.fault.offset <+: m.toText) ∧
        ∀ params : List Text, (∀ p ∈ params, FieldType.WellFormed p) →
          Text.byte '(' :: params.flatten <+: desc → params.flatten.length < e.fault.offset) ∧
    ∀ (sig : Text) (e : DescriptorError), FieldType.validate sig = .error e →
      e.descriptor = sig ∧ e.fault.offset ≤ sig.length ∧
        (∃ field, FieldType.WellFormed field ∧ sig.take e.fault.offset <+: field) ∧
        ∀ field, FieldType.WellFormed field → field <+: sig → e.fault.offset = field.length := by
  constructor
  · intro desc e h
    obtain ⟨front, hviable, hshows⟩ := MethodDescriptor.exists_viable h
    refine ⟨(MethodDescriptor.parse_fault h).1, hshows.offset_le, ?_, ?_⟩
    · rw [hshows.take_eq]
      exact hviable
    · intro params hparams hstart
      exact MethodDescriptor.length_params_lt_offset h hparams hstart
  · intro sig e h
    obtain ⟨hname, front, hviable, hshows⟩ := FieldType.validate_fault h
    refine ⟨hname, hshows.offset_le, ?_, ?_⟩
    · rw [hshows.take_eq]
      exact hviable
    · intro field hfield hstart
      exact FieldType.validate_fault_offset h hfield hstart

/-- A class name that does not end, behind a parameter and array marks, and text behind a type. -/
theorem refusals_point_behind_viable_text_unterminated :
    (MethodDescriptor.parse "(J[[Lx)V" =
        .error ⟨"(J[[Lx)V", ⟨4, .unterminatedClass⟩⟩ ∧
      ∃ m : MethodDescriptor, m.WellFormed ∧ ("(J[[" : Text) <+: m.toText) ∧
    FieldType.validate "[I)" = .error ⟨"[I)", ⟨2, .afterField⟩⟩ ∧
      ∃ field, FieldType.WellFormed field ∧ ("[I" : Text) <+: field := by
  have hmethod : MethodDescriptor.parse "(J[[Lx)V" =
      .error ⟨"(J[[Lx)V", ⟨4, .unterminatedClass⟩⟩ := by with_unfolding_all rfl
  have hfield : FieldType.validate "[I)" = .error ⟨"[I)", ⟨2, .afterField⟩⟩ := rfl
  exact ⟨⟨hmethod, (refusals_point_behind_viable_text.1 _ _ hmethod).2.2.1⟩,
    hfield, (refusals_point_behind_viable_text.2 _ _ hfield).2.2.1⟩

end OperandStack
