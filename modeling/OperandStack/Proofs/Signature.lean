import OperandStack.Proofs.Holding

/-!
# Types of held values

The type of a value comes from an opcode, from a descriptor, from another value or from a class
operand. Descriptors are checked as they are read and class operands are not. This module shows
that nothing but a class operand can bring in a text that is no type: the grammar is closed under
taking elements of arrays, and the parameters and results of a descriptor that was read are types.
-/

namespace OperandStack

/-! ## The grammar -/

namespace FieldType

theorem WellFormed.element {sig element : Text} (h : WellFormed sig)
    (helement : element? sig = some element) : WellFormed element := by
  obtain ⟨dims, base, hdims, hbase, rfl⟩ := h
  cases dims with
  | zero =>
      -- An element type does not start with an array mark.
      obtain ⟨c, tail, rfl, hc, -⟩ := hbase.exists_cons
      simp [element?, isArray, hc] at helement
  | succ dims =>
      have hmark : isArray (List.replicate (dims + 1) (Text.byte '[') ++ base) := by
        simp [isArray, List.replicate_succ]
      rw [element?, if_pos hmark] at helement
      cases helement
      exact ⟨dims, base, by omega, hbase, by simp [List.replicate_succ]⟩

/-- No type is the beginning of another. -/
theorem WellFormed.eq_nil_of_append {sig more : Text} (h : WellFormed sig)
    (hmore : WellFormed (sig ++ more)) : more = [] := by
  have hpart : split (sig ++ more) = .ok (sig, more) := split_eq_ok_iff.2 ⟨h, rfl⟩
  have hwhole : split (sig ++ more) = .ok (sig ++ more, []) :=
    split_eq_ok_iff.2 ⟨hmore, (List.append_nil _).symm⟩
  rw [hpart, Except.ok.injEq, Prod.mk.injEq] at hwhole
  exact hwhole.2

theorem not_wellFormed_void : ¬ WellFormed void := by decide +kernel

end FieldType

theorem Constant.signature_sound (c : Constant) :
    c.signature = [] ∨ FieldType.WellFormed c.signature := by
  cases c with
  | null => exact .inl rfl
  | int => exact .inr (by decide +kernel : FieldType.WellFormed FieldType.int)
  | long => exact .inr (by decide +kernel : FieldType.WellFormed FieldType.long)
  | float => exact .inr (by decide +kernel : FieldType.WellFormed FieldType.float)
  | double => exact .inr (by decide +kernel : FieldType.WellFormed FieldType.double)
  | string => exact .inr (by decide +kernel : FieldType.WellFormed FieldType.string)

namespace LocalLayout

theorem signature_mem_of_mem_place {p : LocalSlot} {slot : Int} {sigs names : List Text}
    (h : p ∈ place slot sigs names) : p.signature ∈ sigs := by
  induction sigs generalizing slot names with
  | nil => cases h
  | cons sig sigs ih =>
      rcases List.mem_cons.1 h with rfl | hrest
      · exact List.mem_cons_self
      · exact List.mem_cons_of_mem _ (ih hrest)

theorem signature_mem_params {p : LocalSlot} {static : Bool} {d : MethodDescriptor}
    {names : List Text} {layout : LocalLayout} (h : ofMethod? static d names = some layout)
    (hp : p ∈ layout.slots) : p.signature ∈ d.params := by
  unfold ofMethod? at h
  split at h
  · cases h
  · cases h
    exact signature_mem_of_mem_place hp

end LocalLayout

/-! ## Class operands -/

/-- The class operand, if it is not empty, stands for a type where a value is to have that type,
and for the element type of an array where an array of it is made. -/
def Instruction.NamesType : Instruction → Prop
  | .type op name => name ≠ [] →
      (op = .new ∨ op = .checkcast → FieldType.validate (FieldType.ofClass name) = .ok ()) ∧
      (op = .anewarray →
        FieldType.validate (FieldType.arrayOf (FieldType.ofClass name)) = .ok ())
  | _ => True

instance : (ins : Instruction) → Decidable ins.NamesType
  | .type op name => inferInstanceAs (Decidable (name ≠ [] →
      (op = .new ∨ op = .checkcast → FieldType.validate (FieldType.ofClass name) = .ok ()) ∧
      (op = .anewarray →
        FieldType.validate (FieldType.arrayOf (FieldType.ofClass name)) = .ok ())))
  | .plain _ | .int _ _ | .var _ _ | .field _ _ _ _ | .method _ _ _ _ _ | .invokeDynamic _ _ _
  | .jump _ _ | .ldc _ _ | .iinc _ _ | .tableSwitch _ _ _ _ | .lookupSwitch _ _ _
  | .multiNewArray _ _ | .foreign _ _ => inferInstanceAs (Decidable True)

def Event.NamesType : Event → Prop
  | .instruction (some ins) => ins.NamesType
  | _ => True

instance : (ev : Event) → Decidable ev.NamesType
  | .instruction (some ins) => inferInstanceAs (Decidable ins.NamesType)
  | .instruction none | .method _ | .parameter _ _ | .code | .label _ | .finish =>
      inferInstanceAs (Decidable True)

namespace Engine

/-! ## The invariant -/

/-- All that an engine takes types from is sound. -/
structure SoundTypes (e : Engine) : Prop where
  held : ∀ v, e.Holds v → v.signature = [] ∨ FieldType.WellFormed v.signature
  descriptor : ∀ d, e.descriptor = some d → d.WellFormed
  locals : ∀ layout, e.locals = some layout → ∀ p ∈ layout.slots, FieldType.WellFormed p.signature

section
variable {e : Engine} {ins : Instruction} {ev : Event}

theorem SoundTypes.gives {sig : Text} (h : e.SoundTypes) (hins : ins.NamesType)
    (hgives : e.Gives ins sig) : sig = [] ∨ FieldType.WellFormed sig := by
  cases hgives with
  | sound hsound => exact hsound
  | parameter hlayout hp => exact .inr (h.locals _ hlayout _ hp)
  | @element _ v _ hv helement =>
      rcases h.held v hv with hempty | hsound
      · simp [hempty, FieldType.element?, FieldType.isArray] at helement
      · exact .inr (hsound.element helement)
  | array hname => exact .inr (FieldType.validate_eq_ok_iff.1 ((hins hname).2 rfl))

theorem SoundTypes.yields {v : Value} (h : e.SoundTypes) (hins : ins.NamesType)
    (hyields : e.Yields ins v) : v.signature = [] ∨ FieldType.WellFormed v.signature := by
  cases hyields with
  | @kept _ v site hv =>
      rw [Value.signature_settle]
      exact h.held v hv
  | cast hv hname => exact .inr (FieldType.validate_eq_ok_iff.1 ((hins hname).1 (.inr rfl)))
  | typed hgives => exact h.gives hins hgives
  | @constant _ c hc => exact Constant.signature_sound c
  | @sum _ _ _ c => exact Constant.signature_sound (.int c)
  | field _ hvalid => exact .inr (FieldType.validate_eq_ok_iff.1 hvalid)
  | address => exact .inl rfl
  | fresh hname => exact .inr (FieldType.validate_eq_ok_iff.1 ((hins hname).1 (.inl rfl)))

theorem SoundTypes.visit (h : e.SoundTypes) (hev : ev.NamesType) : (e.visit ev).1.SoundTypes := by
  have htransition := e.visit_transition ev
  refine ⟨?_, ?_, ?_⟩
  · intro v hv
    rcases htransition.holds hv with hold | ⟨ins, rfl, -, hyields⟩
    · exact h.held v hold
    · exact h.yields hev hyields
  · intro d hd
    rcases htransition.descriptor hd with hold | ⟨desc, hparse⟩
    · exact h.descriptor d hold
    · exact (MethodDescriptor.parse_eq_ok_iff.1 hparse).1
  · intro layout hlayout p hp
    rcases htransition.locals hlayout with hold | ⟨d, static, names, hd, hmade⟩
    · exact h.locals layout hold p hp
    · exact (h.descriptor d hd).params _ (LocalLayout.signature_mem_params hmade hp)

theorem soundTypes_new (config : Config) : (Engine.new config).SoundTypes :=
  ⟨fun v hv => absurd hv (not_holds_new config v), nofun, nofun⟩

end

/-! ## Main results -/

/-- As long as class operands stand for types, every value that an engine comes to hold has a type
or an unknown one. It is never void, nor the beginning of a type that was cut short. -/
theorem held_signatures_are_types {σ : Type} (next : Option (Visitor σ)) (t : σ) (config : Config)
    (evs : List Event) (hevs : ∀ ev ∈ evs, ev.NamesType) (v : Value)
    (hv : ((frontOf next).after (new config, t) evs).1.Holds v) :
    (v.signature = [] ∨ FieldType.validate v.signature = .ok ()) ∧
      v.signature ≠ FieldType.void ∧
      (v.signature ≠ [] → ∀ more,
        FieldType.validate (v.signature ++ more) = .ok () → more = []) := by
  have hsound : ((frontOf next).after (new config, t) evs).1.SoundTypes :=
    after_of_visit (fun ev hev e h => h.visit (hevs ev hev)) (soundTypes_new config)
  simp only [FieldType.validate_eq_ok_iff]
  rcases hsound.held v hv with hempty | hwell
  · refine ⟨.inl hempty, ?_, fun hne => absurd hempty hne⟩
    rw [hempty]
    decide
  · refine ⟨.inr hwell, ?_, fun _ more hmore => hwell.eq_nil_of_append hmore⟩
    intro hvoid
    exact FieldType.not_wellFormed_void (hvoid ▸ hwell)

/-- Takes an array out of an array of arrays of arrays, stores and reloads it, makes an array of
arrays of a class, casts it and returns it. -/
def arraysOfArrays : List Event :=
  [.method { name := "m", descriptor := "([[[I)V", access := ⟨0x0008⟩ }, .code,
    .instruction (some (.plain ⟨0x2A⟩)), .instruction (some (.plain ⟨0x03⟩)),
    .instruction (some (.plain ⟨0x32⟩)), .instruction (some (.plain ⟨0x4C⟩)),
    .instruction (some (.plain ⟨0x2B⟩)), .instruction (some (.plain ⟨0x04⟩)),
    .instruction (some (.plain ⟨0x32⟩)),
    .instruction (some (.plain ⟨0x06⟩)), .instruction (some (.type .anewarray "[LA;")),
    .instruction (some (.type .checkcast "[Ljava/lang/Object;")),
    .instruction (some (.plain ⟨0xB0⟩))]

/-- The array taken out last, the one that was stored and the one that is returned. -/
theorem held_signatures_are_types_arrays :
    let e := ((frontOf (none : Option (Visitor Unit))).after
      (new { trackLocals := true }, ()) arraysOfArrays).1
    (∀ ev ∈ arraysOfArrays, ev.NamesType) ∧
      ∀ sig ∈ (["[I", "[[I", "[Ljava/lang/Object;"] : List Text),
        e.Holds (.typed sig) ∧ FieldType.validate sig = .ok () := by
  intro e
  have hevs : ∀ ev ∈ arraysOfArrays, ev.NamesType := by decide +kernel
  have hstack : e.stack = some [.typed "[I"] := by decide +kernel
  have hslot : e.recorded.get? 1 = some (.typed "[[I") := by decide +kernel
  have hreturned : e.returned = some (.typed "[Ljava/lang/Object;") := by decide +kernel
  refine ⟨hevs, ?_⟩
  have hvalid (sig : Text) (hne : sig ≠ []) (h : e.Holds (.typed sig)) :
      e.Holds (.typed sig) ∧ FieldType.validate sig = .ok () :=
    ⟨h, (held_signatures_are_types none () { trackLocals := true } arraysOfArrays hevs _
      h).1.resolve_left hne⟩
  simp only [List.forall_mem_cons, List.not_mem_nil, false_imp_iff, implies_true, and_true]
  exact ⟨hvalid _ (by decide) (.entry hstack (by simp)), hvalid _ (by decide) (.slot hslot),
    hvalid _ (by decide) (.returned hreturned)⟩

end Engine

end OperandStack
