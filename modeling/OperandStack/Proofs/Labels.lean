import OperandStack.Listing.Code

/-!
# Labels and their names

A line is read with names in the place of labels, and the labels are found one after the other in
the table of the body. Since a table only grows, and a name keeps its place in it, the labels of a
line are those that its names have in the table afterwards (`LabelTable.run_traverse_label`) and in
every later one (`LabelTable.object_eq_of_append`).
-/

namespace OperandStack

/-! ## Replacing labels -/

namespace Instruction

variable {L M : Type} {f : L → M}

def map (f : L → M) (ins : Instruction L) : Instruction M :=
  (ins.traverse (m := Id) fun l => pure (f l)).run

def named (ins : Instruction) : Instruction Text := ins.map Label.name

theorem run_mapM_pure (targets : List (Option L)) :
    (targets.mapM (m := Id) fun target => target.mapM fun l => pure (f l)).run =
      targets.map (·.map f) := by
  induction targets with
  | nil => rfl
  | cons target targets ih =>
      rw [List.mapM_cons]
      cases target <;> exact congrArg (List.cons _) ih

@[simp]
theorem map_jump (op : Opcode) (target : Option L) :
    (jump op target).map f = jump op (target.map f) := by
  cases target <;> rfl

@[simp]
theorem map_tableSwitch (min max : Int) (targets : List (Option L)) (fallback : Option L) :
    (tableSwitch min max targets fallback).map f =
      tableSwitch min max (targets.map (·.map f)) (fallback.map f) := by
  rw [← run_mapM_pure]
  cases fallback <;> rfl

@[simp]
theorem map_lookupSwitch (keys : List Int) (targets : List (Option L)) (fallback : Option L) :
    (lookupSwitch keys targets fallback).map f =
      lookupSwitch keys (targets.map (·.map f)) (fallback.map f) := by
  rw [← run_mapM_pure]
  cases fallback <;> rfl

theorem opcode_map (ins : Instruction L) : (ins.map f).opcode = ins.opcode := by
  cases ins with
  | jump | tableSwitch | lookupSwitch => simp [opcode]
  | _ => rfl

theorem form_map (ins : Instruction L) : (ins.map f).form = ins.form := by
  cases ins with
  | jump | tableSwitch | lookupSwitch => simp [form]
  | _ => rfl

theorem targets_map (ins : Instruction L) : (ins.map f).targets = ins.targets.map f := by
  have htarget (target : Option L) : (target.map f).toList = target.toList.map f := by
    cases target <;> rfl
  have hlabels (targets : List (Option L)) :
      (targets.map (·.map f)).filterMap id = (targets.filterMap id).map f := by
    rw [List.filterMap_map, List.map_filterMap]
    rfl
  cases ins with
  | jump op target => simp only [map_jump, targets, htarget]
  | tableSwitch => simp only [map_tableSwitch, targets, htarget, hlabels, List.map_append]
  | lookupSwitch => simp only [map_lookupSwitch, targets, htarget, hlabels, List.map_append]
  | _ => rfl

/-- What is done to the labels counts only for the labels that are there. -/
theorem map_congr {g : L → M} {ins : Instruction L} (h : ∀ l ∈ ins.targets, f l = g l) :
    ins.map f = ins.map g := by
  have htarget {target : Option L} (h : ∀ l ∈ target.toList, f l = g l) :
      target.map f = target.map g := by
    cases target with
    | none => rfl
    | some l => exact congrArg some (h l (by simp))
  have htargets {targets : List (Option L)} (h : ∀ l ∈ targets.filterMap id, f l = g l) :
      targets.map (·.map f) = targets.map (·.map g) := by
    refine List.map_congr_left fun target hmem => htarget fun l hl => h l ?_
    exact List.mem_filterMap.2 ⟨target, hmem, Option.mem_toList.1 hl⟩
  cases ins with
  | jump op target =>
      rw [map_jump, map_jump, htarget h]
  | tableSwitch min max targets fallback =>
      obtain ⟨hfallback, hrest⟩ := List.forall_mem_append.1 h
      rw [map_tableSwitch, map_tableSwitch, htarget hfallback, htargets hrest]
  | lookupSwitch keys targets fallback =>
      obtain ⟨hfallback, hrest⟩ := List.forall_mem_append.1 h
      rw [map_lookupSwitch, map_lookupSwitch, htarget hfallback, htargets hrest]
  | _ => rfl

theorem map_map {N : Type} {g : M → N} (ins : Instruction L) :
    (ins.map f).map g = ins.map fun l => g (f l) := by
  cases ins with
  | jump | tableSwitch | lookupSwitch => simp [Function.comp_def]
  | _ => rfl

theorem map_id (ins : Instruction L) : ins.map id = ins := by
  cases ins with
  | jump | tableSwitch | lookupSwitch => simp
  | _ => rfl

end Instruction

namespace CodeElement

variable {L M : Type}

def map (f : L → M) : CodeElement L → CodeElement M
  | .instruction ins => .instruction (ins.map f)
  | .label l => .label (f l)

def named (el : CodeElement) : CodeElement Text := el.map Label.name

def defines? : CodeElement L → Option L
  | .label l => some l
  | .instruction _ => none

def targets : CodeElement L → List L
  | .label _ => []
  | .instruction ins => ins.targets

/-- An element mentions the label it defines and those it goes to. -/
def mentions (el : CodeElement L) : List L := el.defines?.toList ++ el.targets

theorem map_congr {f g : L → M} {el : CodeElement L} (h : ∀ l ∈ el.mentions, f l = g l) :
    el.map f = el.map g := by
  cases el with
  | instruction ins => exact congrArg CodeElement.instruction (Instruction.map_congr h)
  | label l => exact congrArg CodeElement.label (h l (by simp [mentions, defines?]))

theorem mentions_map (f : L → M) (el : CodeElement L) :
    (el.map f).mentions = el.mentions.map f := by
  cases el with
  | instruction ins => exact ins.targets_map
  | label l => rfl

end CodeElement

/-! ## Tables -/

namespace LabelTable

variable {t t' : LabelTable} {name : Text} {names : List Text}

def object (t : LabelTable) (name : Text) : Label := ⟨t.labels.idxOf name, name⟩

theorem mention_cons (t : LabelTable) (name : Text) (names : List Text) :
    t.mention (name :: names) = (t.mention [name]).mention names := rfl

theorem mention_singleton (t : LabelTable) (name : Text) :
    t.mention [name] =
      { t with labels := if name ∈ t.labels then t.labels else t.labels ++ [name] } := by
  by_cases hmem : name ∈ t.labels <;> simp [mention, label, StateT.run, hmem]

theorem mention_append (t : LabelTable) (names names' : List Text) :
    t.mention (names ++ names') = (t.mention names).mention names' :=
  List.foldl_append

/-- What is left of a table when names are mentioned, and what comes to it. -/
structure Grows (t : LabelTable) (names : List Text) (t' : LabelTable) : Prop where
  labels : ∃ added, t'.labels = t.labels ++ added
  mem : ∀ name, name ∈ t'.labels ↔ name ∈ t.labels ∨ name ∈ names
  defined : t'.defined = t.defined

theorem grows_mention (t : LabelTable) (names : List Text) : t.Grows names (t.mention names) := by
  induction names generalizing t with
  | nil => exact ⟨⟨[], (List.append_nil _).symm⟩, by simp [mention], rfl⟩
  | cons name names ih =>
      rw [mention_cons, mention_singleton]
      obtain ⟨⟨added, hadded⟩, hmem, hdefined⟩ :=
        ih { t with labels := if name ∈ t.labels then t.labels else t.labels ++ [name] }
      by_cases hknown : name ∈ t.labels
      · simp only [hknown, if_true] at hadded hmem hdefined ⊢
        refine ⟨⟨added, hadded⟩, fun other => ?_, hdefined⟩
        rw [hmem, List.mem_cons]
        constructor
        · exact Or.imp_right .inr
        · rintro (hother | rfl | hother)
          · exact .inl hother
          · exact .inl hknown
          · exact .inr hother
      · simp only [hknown, if_false] at hadded hmem hdefined ⊢
        refine ⟨⟨[name] ++ added, by rw [hadded, List.append_assoc]⟩, fun other => ?_, hdefined⟩
        rw [hmem, List.mem_append, List.mem_singleton, List.mem_cons, or_assoc]

/-- A name keeps its label when others are added. -/
theorem object_eq_of_append {added : List Text} (h : t'.labels = t.labels ++ added)
    (hmem : name ∈ t.labels) : t'.object name = t.object name := by
  rw [object, object, h, List.idxOf_append, if_pos hmem]

theorem named_map_object (t : LabelTable) (el : CodeElement Text) :
    (el.map t.object).named = el := by
  cases el with
  | label name => rfl
  | instruction ins =>
      refine congrArg CodeElement.instruction ((ins.map_map).trans ?_)
      exact ins.map_id

/-- The labels of an element are those that its names have in the table. -/
structure Provides (t : LabelTable) (el : CodeElement) : Prop where
  objects : el.named.map t.object = el
  names : ∀ name ∈ el.named.mentions, name ∈ t.labels

theorem provides_map {el : CodeElement Text} (h : ∀ name ∈ el.mentions, name ∈ t.labels) :
    t.Provides (el.map t.object) := by
  constructor
  · rw [named_map_object]
  · rwa [named_map_object]

theorem Provides.of_append {el : CodeElement} (h : t.Provides el) {added : List Text}
    (hadded : t'.labels = t.labels ++ added) : t'.Provides el := by
  refine ⟨Eq.trans ?_ h.objects, fun name hname => ?_⟩
  · exact CodeElement.map_congr fun name hname => object_eq_of_append hadded (h.names name hname)
  · rw [hadded]
    exact List.mem_append_left _ (h.names name hname)

theorem Provides.exists_name {el : CodeElement} (h : t.Provides el) {label : Label}
    (hlabel : label ∈ el.mentions) : ∃ name ∈ t.labels, label = t.object name := by
  rw [← h.objects, CodeElement.mentions_map] at hlabel
  obtain ⟨name, hname, rfl⟩ := List.mem_map.1 hlabel
  exact ⟨name, h.names name hname, rfl⟩

theorem object_mention (hmem : name ∈ t.labels) (names : List Text) :
    (t.mention names).object name = t.object name := by
  obtain ⟨added, hadded⟩ := (t.grows_mention names).labels
  exact object_eq_of_append hadded hmem

theorem mem_mention (h : name ∈ names) : name ∈ (t.mention names).labels :=
  ((t.grows_mention names).mem name).2 (.inr h)

theorem map_object_mention (t : LabelTable) (target : Option Text) (names : List Text) :
    target.map ((t.mention target.toList).mention names).object =
      target.map (t.mention target.toList).object := by
  cases target with
  | none => rfl
  | some name => exact congrArg some (object_mention (mem_mention (by simp)) names)

/-- In one table, labels with the same number have the same name. -/
theorem eq_of_number_object {other : Text} (hname : name ∈ t.labels) (hother : other ∈ t.labels)
    (h : (t.object name).number = (t.object other).number) : name = other := by
  have hlt := List.idxOf_lt_length_of_mem hname
  have hlt' := List.idxOf_lt_length_of_mem hother
  have hsame : t.labels.idxOf name = t.labels.idxOf other := h
  have hget : t.labels[t.labels.idxOf name] = name := List.getElem_idxOf hlt
  have hget' : t.labels[t.labels.idxOf other] = other := List.getElem_idxOf hlt'
  rw [← hget, ← hget']
  simp only [hsame]

theorem run_label (t : LabelTable) (name : Text) :
    (label name).run t = ((t.mention [name]).object name, t.mention [name]) := by
  rw [mention_singleton]
  by_cases hmem : name ∈ t.labels
  · simp [label, StateT.run, object, hmem]
  · simp [label, StateT.run, object, hmem, List.idxOf_append]

theorem run_bind_of_run {α β : Type} {x : StateM LabelTable α} {a : α} (h : x.run t = (a, t'))
    (f : α → StateM LabelTable β) : (x >>= f).run t = (f a).run t' := by
  rw [StateT.run_bind, h]
  rfl

theorem run_mapM_label_option (t : LabelTable) (target : Option Text) :
    (target.mapM label).run t =
      (target.map (t.mention target.toList).object, t.mention target.toList) := by
  cases target with
  | none => rfl
  | some name =>
      rw [Option.mapM_some, StateT.run_map, run_label]
      rfl

theorem run_mapM_label (t : LabelTable) (targets : List (Option Text)) :
    (targets.mapM fun target : Option Text => target.mapM label).run t =
      (targets.map (·.map (t.mention (targets.filterMap id)).object),
        t.mention (targets.filterMap id)) := by
  induction targets generalizing t with
  | nil => rfl
  | cons target targets ih =>
      have hnames : (target :: targets).filterMap id = target.toList ++ targets.filterMap id := by
        cases target <;> rfl
      rw [List.mapM_cons, run_bind_of_run (t.run_mapM_label_option target),
        run_bind_of_run (ih (t.mention target.toList)), hnames, mention_append, List.map_cons,
        map_object_mention]
      rfl

/-- The labels of an instruction are those that its names have in the table afterwards. -/
theorem run_traverse_label (t : LabelTable) (ins : Instruction Text) :
    (ins.traverse label).run t =
      (ins.map (t.mention ins.targets).object, t.mention ins.targets) := by
  cases ins with
  | jump op target =>
      rw [Instruction.map_jump, Instruction.traverse,
        run_bind_of_run (t.run_mapM_label_option target)]
      rfl
  | tableSwitch min max targets fallback =>
      rw [Instruction.map_tableSwitch, Instruction.traverse, Instruction.targets, mention_append,
        map_object_mention, run_bind_of_run (t.run_mapM_label_option fallback),
        run_bind_of_run (run_mapM_label _ targets)]
      rfl
  | lookupSwitch keys targets fallback =>
      rw [Instruction.map_lookupSwitch, Instruction.traverse, Instruction.targets, mention_append,
        map_object_mention, run_bind_of_run (t.run_mapM_label_option fallback),
        run_bind_of_run (run_mapM_label _ targets)]
      rfl
  | _ => rfl

/-! ## Lines -/

section
variable {r : Line.Reading}

theorem enter_of_error {p : LineProblem} (h : r.result = .error p) :
    t.enter r = (t.mention r.met, .error p) := by
  simp only [enter, h]

theorem enter_of_instruction {ins : Instruction Text} (h : r.result = .ok (.instruction ins)) :
    t.enter r =
      (t.mention ins.targets, .ok (.instruction (ins.map (t.mention ins.targets).object))) := by
  simp only [enter, h, run_traverse_label]

theorem enter_of_new (h : r.result = .ok (.label name)) (hnew : name ∉ t.defined) :
    t.enter r =
      ({ t.mention [name] with defined := t.defined ++ [name] },
        .ok (.label ((t.mention [name]).object name))) := by
  have hcontains : t.defined.contains name = false := by simpa using hnew
  simp only [enter, h, hcontains, Bool.false_eq_true, if_false, run_label, mention_singleton,
    object]

theorem enter_of_repeated (h : r.result = .ok (.label name)) (hmem : name ∈ t.defined) :
    t.enter r = (t, .error (.repeatedLabel name)) := by
  simp only [enter, h, List.contains_iff_mem.2 hmem, if_true]

end

end LabelTable

end OperandStack
