import OperandStack.Descriptor.Basic

/-!
# Reading field types

`split` takes the field type off the front of a text; `validate` accepts the texts that are
exactly one field type.
-/

namespace OperandStack.FieldType

/-- At most this many array marks stand before an element type. -/
def maxDimensions : Nat := 255

/-- Reads the element type after `dims` array marks. -/
def splitElement (dims : Text) : Text → Except DescriptorFault (Text × Text)
  | [] => .error ⟨dims.length, .noElement⟩
  | c :: rest =>
    if isPrimitiveCode c then .ok (dims ++ [c], rest)
    else if c = Text.byte 'L' then
      match Text.cut? (Text.byte ';') rest with
      | none => .error ⟨dims.length, .unterminatedClass⟩
      | some ([], _) => .error ⟨dims.length, .emptyClass⟩
      | some (name, after) => .ok (dims ++ c :: name ++ [Text.byte ';'], after)
    else .error ⟨dims.length, .unexpectedCode c⟩

/-- The field type at the start of a text, and what follows it. -/
def split (t : Text) : Except DescriptorFault (Text × Text) :=
  let dims := t.takeWhile (· = Text.byte '[')
  if maxDimensions < dims.length then .error ⟨0, .tooManyDimensions⟩
  else splitElement dims (t.dropWhile (· = Text.byte '['))

/-- Checks that a text is one field type and nothing more. -/
def validate (sig : Text) : Except DescriptorError Unit :=
  match split sig with
  | .error fault => .error ⟨sig, fault⟩
  | .ok (_, []) => .ok ()
  | .ok (field, _ :: _) => .error ⟨sig, ⟨field.length, .afterField⟩⟩

theorem append_of_cut? {b : UInt8} {t s u : Text} (h : Text.cut? b t = some (s, u)) :
    s ++ b :: u = t := by
  induction t generalizing s u with
  | nil => simp [Text.cut?] at h
  | cons a t ih =>
    simp only [Text.cut?] at h
    split at h
    next same =>
      obtain ⟨rfl, rfl⟩ := Prod.mk.injEq .. ▸ Option.some.injEq .. ▸ h
      simp [same]
    next =>
      obtain ⟨⟨s', u'⟩, found, made⟩ := Option.map_eq_some_iff.1 h
      obtain ⟨rfl, rfl⟩ := Prod.mk.injEq .. ▸ made
      simp [ih found]

/-- Nothing is lost: the field type and the rest make up the text, and the field type is
not empty. -/
theorem append_of_split {t field rest : Text} (h : split t = .ok (field, rest)) :
    field ++ rest = t ∧ field ≠ [] := by
  unfold split at h
  simp only at h
  split at h
  · simp at h
  · have whole := List.takeWhile_append_dropWhile (p := fun b => b = Text.byte '[') (l := t)
    generalize t.takeWhile _ = dims at h whole
    generalize t.dropWhile _ = body at h whole
    subst whole
    cases body with
    | nil => simp [splitElement] at h
    | cons c tail =>
      simp only [splitElement] at h
      repeat' split at h
      all_goals simp only [Except.ok.injEq, Prod.mk.injEq, reduceCtorEq] at h
      all_goals obtain ⟨rfl, rfl⟩ := h
      · simp
      · rename_i name after _ found
        simp [← append_of_cut? found]

theorem length_of_split {t field rest : Text} (h : split t = .ok (field, rest)) :
    rest.length < t.length := by
  obtain ⟨rfl, nonempty⟩ := append_of_split h
  have := List.length_pos_iff.2 nonempty
  simp only [List.length_append]
  omega

end OperandStack.FieldType
