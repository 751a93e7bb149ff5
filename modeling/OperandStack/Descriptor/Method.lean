import OperandStack.Descriptor.Field

/-!
# Method descriptors

`MethodDescriptor.parse` reads a descriptor from left to right and reports the offset of the
first byte it cannot use. `toText` puts the parts together again.
-/

namespace OperandStack

structure MethodDescriptor where
  params : List Text
  result : Text
deriving DecidableEq, Repr

namespace MethodDescriptor

def isVoid (m : MethodDescriptor) : Bool := m.result = FieldType.void

/-- Words of local storage the parameters take, a receiver not counted. -/
def argumentSlots (m : MethodDescriptor) : Nat :=
  (m.params.map FieldType.slotSize).foldr (· + ·) 0

def toText (m : MethodDescriptor) : Text := "(" ++ m.params.flatten ++ ")" ++ m.result

/-- Reads field types up to the closing parenthesis; gives them and what follows it. -/
def splitParams (t : Text) : Except DescriptorFault (List Text × Text) :=
  match t with
  | [] => .error ⟨0, .noClosing⟩
  | b :: rest =>
    if b = Text.byte ')' then .ok ([], rest)
    else match _split : FieldType.split (b :: rest) with
      | .error fault => .error fault
      | .ok (field, after) =>
        match splitParams after with
        | .error fault => .error (fault.shift field.length)
        | .ok (fields, after) => .ok (field :: fields, after)
termination_by t.length
decreasing_by exact FieldType.length_of_split _split

/-- Checks the type of the result, which ends the descriptor. -/
def checkResult (t : Text) : Except DescriptorFault Unit :=
  if t.isEmpty then .error ⟨0, .noResult⟩
  else if t = FieldType.void then .ok ()
  else match FieldType.split t with
    | .error fault => .error fault
    | .ok (_, []) => .ok ()
    | .ok (field, _ :: _) => .error ⟨field.length, .afterResult⟩

def parse (desc : Text) : Except DescriptorError MethodDescriptor :=
  let refuse (fault : DescriptorFault) : DescriptorError := ⟨desc, fault⟩
  match desc with
  | [] => .error (refuse ⟨0, .noOpening⟩)
  | b :: t =>
    if b ≠ Text.byte '(' then .error (refuse ⟨0, .noOpening⟩)
    else match splitParams t with
      | .error fault => .error (refuse (fault.shift 1))
      | .ok (params, result) =>
        match checkResult result with
        | .error fault => .error (refuse (fault.shift (desc.length - result.length)))
        | .ok () => .ok ⟨params, result⟩

end MethodDescriptor

end OperandStack
