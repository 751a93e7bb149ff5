import OperandStack.Proofs.Body

/-!
# Tracking local variables changes no verdict

An engine that tracks local variables knows more about the values it loads: constants, exact
types, allocations. Two engines of which one tracks and the other does not have different values
on their stacks, then. What an engine looks at when it decides on an event is less: how many
entries there are and how many words each of them takes. `Engine.Alike` says that two engines
agree on all that, and each event keeps them alike and gets the same verdict from both, as long as
loads bring values of the width that their opcodes announce.
-/

namespace OperandStack

/-! ## Shapes of stacks -/

namespace Operands

def shape (s : Operands) : List Nat := s.map Value.category

theorem shape_append (s t : Operands) : shape (s ++ t) = s.shape ++ t.shape := List.map_append

theorem shape_take (s : Operands) (n : Nat) : shape (s.take n) = s.shape.take n := List.map_take

theorem shape_drop (s : Operands) (n : Nat) : shape (s.drop n) = s.shape.drop n := List.map_drop

variable {s t : Operands}

theorem length_eq_of_shape_eq (h : s.shape = t.shape) : s.length = t.length := by
  simpa [shape] using congrArg List.length h

theorem shape_eq_nil (h : shape [] = t.shape) : t = [] := List.map_eq_nil_iff.1 h.symm

theorem shape_eq_cons {v : Value} (h : shape (v :: s) = t.shape) :
    ∃ w t', t = w :: t' ∧ v.category = w.category ∧ s.shape = shape t' := by
  obtain ⟨w, t', rfl, hw, ht⟩ := List.map_eq_cons_iff.1 h.symm
  exact ⟨w, t', rfl, hw.symm, ht.symm⟩

theorem shape_eq_singleton {v : Value} (h : shape [v] = t.shape) :
    ∃ w, t = [w] ∧ v.category = w.category := by
  obtain ⟨w, t', rfl, hw, ht⟩ := shape_eq_cons h
  obtain rfl := shape_eq_nil ht
  exact ⟨w, rfl, hw⟩

theorem shape_eq_pair {v v' : Value} (h : shape [v, v'] = t.shape) :
    ∃ w w', t = [w, w'] ∧ v.category = w.category ∧ v'.category = w'.category := by
  obtain ⟨w, t', rfl, hw, ht⟩ := shape_eq_cons h
  obtain ⟨w', rfl, hw'⟩ := shape_eq_singleton ht
  exact ⟨w, w', rfl, hw, hw'⟩

theorem countWords?_congr (h : s.shape = t.shape) (skip n : Nat) :
    s.countWords? skip n = t.countWords? skip n := by
  have go : ∀ (s t : Operands), s.shape = t.shape → ∀ n,
      countWords?.go n s = countWords?.go n t := by
    intro s
    induction s with
    | nil =>
        intro t h n
        rw [shape_eq_nil h]
    | cons v s ih =>
        intro t h n
        obtain ⟨w, t', rfl, hw, ht⟩ := shape_eq_cons h
        cases n with
        | zero => rfl
        | succ n => rw [countWords?.go, countWords?.go, hw, ih t' ht]
  refine go _ _ ?_ n
  rw [shape_drop, shape_drop, h]

end Operands

/-! ## Operations -/

theorem Value.category_of_isReference {sig : Text} (h : FieldType.isReference sig) :
    (Value.typed sig).category = 1 := by
  have hlong : sig ≠ FieldType.long := by
    rintro rfl
    revert h
    decide
  have hdouble : sig ≠ FieldType.double := by
    rintro rfl
    revert h
    decide
  simp [Value.category, Value.typed, FieldType.isWide, hlong, hdouble]

/-- However much is known of an array, its elements take as many words. -/
theorem category_elementKind (kind array : Text) :
    (Value.typed (elementKind kind array)).category = (Value.typed kind).category := by
  unfold elementKind
  split
  · next element _ =>
    split
    · next h =>
      simp only [Bool.and_eq_true, decide_eq_true_eq] at h
      rw [Value.category_of_isReference h.2, h.1]
      decide
    · split
      · next h =>
        simp only [Bool.and_eq_true, decide_eq_true_eq] at h
        rw [h.1, h.2]
        decide
      · rfl
  · rfl

/-- Updates that push values of the same categories. -/
structure Update.Alike (u w : Update) : Prop where
  push : Operands.shape u.push = Operands.shape w.push
  returned : u.returned.map Value.category = w.returned.map Value.category
  site : u.site = w.site

/-- Runs of an operation that stop for the same reason or have updates that are alike. -/
inductive RunsAlike : Except Stop Update → Except Stop Update → Prop
  | ok {u w : Update} : u.Alike w → RunsAlike (.ok u) (.ok w)
  | error {stop : Stop} : RunsAlike (.error stop) (.error stop)

theorem RunsAlike.of_push {push push' : Operands} (h : push.shape = push'.shape) :
    RunsAlike (.ok { push }) (.ok { push := push' }) :=
  .ok ⟨h, rfl, rfl⟩

theorem RunsAlike.refl (r : Except Stop Update) : RunsAlike r r := by
  cases r with
  | ok u => exact .ok ⟨rfl, rfl, rfl⟩
  | error stop => exact .error

section
variable {e e' : Engine} {args args' : Operands}

def onOne (f : Value → Update) : Operands → Except Stop Update
  | [v] => .ok (f v)
  | _ => .error (.crash .operandCount)

def onTwo (f : Value → Value → Update) : Operands → Except Stop Update
  | [v, v'] => .ok (f v v')
  | _ => .error (.crash .operandCount)

theorem RunsAlike.one (f : Value → Update) (hargs : args.shape = args'.shape)
    (hf : ∀ v w, v.category = w.category → (f v).Alike (f w)) :
    RunsAlike (onOne f args) (onOne f args') := by
  match args with
  | [] =>
    obtain rfl := Operands.shape_eq_nil hargs
    exact .error
  | [v] =>
    obtain ⟨w, rfl, hw⟩ := Operands.shape_eq_singleton hargs
    exact .ok (hf v w hw)
  | _ :: _ :: _ =>
    obtain ⟨w, _, rfl, -, hargs⟩ := Operands.shape_eq_cons hargs
    obtain ⟨w', _, rfl, -, -⟩ := Operands.shape_eq_cons hargs
    exact .error

theorem RunsAlike.two (f : Value → Value → Update) (hargs : args.shape = args'.shape)
    (hf : ∀ v w v' w', v.category = w.category → v'.category = w'.category →
      (f v v').Alike (f w w')) :
    RunsAlike (onTwo f args) (onTwo f args') := by
  match args with
  | [] =>
    obtain rfl := Operands.shape_eq_nil hargs
    exact .error
  | [v] =>
    obtain ⟨w, rfl, -⟩ := Operands.shape_eq_singleton hargs
    exact .error
  | [v, v'] =>
    obtain ⟨w, w', rfl, hw, hw'⟩ := Operands.shape_eq_pair hargs
    exact .ok (hf v w v' w' hw hw')
  | _ :: _ :: _ :: _ =>
    obtain ⟨w, _, rfl, -, hargs⟩ := Operands.shape_eq_cons hargs
    obtain ⟨w', _, rfl, -, hargs⟩ := Operands.shape_eq_cons hargs
    obtain ⟨w'', _, rfl, -, -⟩ := Operands.shape_eq_cons hargs
    exact .error

/-- Operations see of their operands only the categories, but for loads, which bring in values
that the engines know of. -/
theorem Action.run_alike (action : Action) (ins : Instruction) (hsites : e.sites = e'.sites)
    (hargs : args.shape = args'.shape)
    (hload : ∀ kind implied slot, action = .load kind implied → slotOf ins implied = .ok slot →
      (e.loaded slot kind).category = (e'.loaded slot kind).category) :
    RunsAlike (action.run e ins args) (action.run e' ins args') := by
  cases action
  case load kind implied =>
    simp only [Action.run]
    cases hslot : slotOf ins implied with
    | ok slot => exact .of_push (congrArg ([·]) (hload kind implied slot rfl hslot))
    | error stop => exact .error
  case store implied =>
    simp only [Action.run]
    cases hslot : slotOf ins implied with
    | ok slot =>
        exact .one (fun v => { record := some (slot, v) }) hargs fun v w _ => ⟨rfl, rfl, rfl⟩
    | error stop => exact .error
  case increment =>
    simp only [Action.run]
    split
    · next slot inc =>
      split
      · exact .refl _
      · split
        · exact .refl _
        · -- What is known of the slot decides on the record only.
          cases e.recorded.get? slot <;> cases e'.recorded.get? slot <;>
            exact .ok ⟨rfl, rfl, rfl⟩
    · exact .error
  case allocate =>
    simp only [Action.run, hsites]
    exact .refl _
  case loadElement kind =>
    refine .two (fun _ array => { push := [.typed (elementKind kind array.signature)] }) hargs ?_
    intro v w v' w' _ _
    exact ⟨by simp [Operands.shape, category_elementKind], rfl, rfl⟩
  case dup =>
    refine .one (fun v => { push := [v, v] }) hargs ?_
    intro v w hw
    exact ⟨by simp [Operands.shape, hw], rfl, rfl⟩
  case dupBelow =>
    refine .two (fun v v' => { push := [v, v', v] }) hargs ?_
    intro v w v' w' hw hw'
    exact ⟨by simp [Operands.shape, hw, hw'], rfl, rfl⟩
  case swap =>
    refine .two (fun v v' => { push := [v', v] }) hargs ?_
    intro v w v' w' hw hw'
    exact ⟨by simp [Operands.shape, hw, hw'], rfl, rfl⟩
  case returnValue =>
    refine .one (fun v => { returned := some v }) hargs ?_
    intro v w hw
    exact ⟨rfl, by simp [hw], rfl⟩
  case cast =>
    simp only [Action.run]
    split
    · next op name =>
      split
      · exact .refl _
      · refine .one (fun v => { push := [v.withSignature (FieldType.ofClass name)] }) hargs ?_
        intro v w _
        exact ⟨rfl, rfl, rfl⟩
    · exact .error
  all_goals exact .refl _

end

namespace Engine

/-! ## Engines that decide alike -/

/-- The engines have the same progress behind them, and their stacks and return values take the
same words. -/
structure Alike (e e' : Engine) : Prop where
  phase : e.phase = e'.phase
  method : e.method = e'.method
  descriptor : e.descriptor = e'.descriptor
  names : e.names = e'.names
  sites : e.sites = e'.sites
  count : e.count = e'.count
  sticky : e.sticky = e'.sticky
  stack : e.stack.map Operands.shape = e'.stack.map Operands.shape
  returned : e.returned.map Value.category = e'.returned.map Value.category

/-- What the engines load by an instruction takes the same words. -/
def LoadAlike (e e' : Engine) (ins : Instruction) : Prop :=
  ∀ kind implied slot, ins.Performs (.load kind implied) → slotOf ins implied = .ok slot →
    (e.loaded slot kind).category = (e'.loaded slot kind).category

/-- Both stopped or went on in the same way, and are alike. -/
def EndAlike (r r' : Engine × Option Stop) : Prop := r.1.Alike r'.1 ∧ r.2 = r'.2

section
variable {e e' : Engine} {s s' : Operands}

theorem Alike.withStack (h : e.Alike e') (hs : s.shape = s'.shape) :
    Alike { e with stack := some s } { e' with stack := some s' } :=
  { h with stack := congrArg some hs }

theorem shape_settle (site : Option Int) (s : Operands) :
    Operands.shape (Operands.settle site s) = s.shape := by
  simp [Operands.shape, Operands.settle]

theorem Alike.update (h : e.Alike e') (hs : s.shape = s'.shape) {u w : Update}
    (hu : u.Alike w) : (e.update s u).Alike (e'.update s' w) := by
  refine { h with sites := ?_, stack := ?_, returned := ?_ }
  · simp only [Engine.update, hu.site, h.sites]
  · simp only [Engine.update, Option.map_some, Operands.shape_append, hu.push, hs]
  · have hreturned := hu.returned
    have hkept := h.returned
    simp only [Engine.update]
    revert hreturned
    rcases u.returned with _ | v <;> rcases w.returned with _ | v' <;> simp [hkept]

/-- Constructor calls may settle a reference in one engine and none in the other. -/
theorem Alike.change (h : e.Alike e') (hs : s.shape = s'.shape) {c c' : Change}
    (htaken : c.taken = c'.taken) (hu : c.update.Alike c'.update) :
    (e.change s c).Alike (e'.change s' c') := by
  have hsettled : Alike { e with recorded := e.recorded.settle c.settles }
      { e' with recorded := e'.recorded.settle c'.settles } := { h with }
  refine hsettled.update ?_ hu
  rw [shape_settle, shape_settle, Operands.shape_drop, Operands.shape_drop, hs, htaken]

/-- Changes that take the same entries and have updates that are alike, or none for the same
reason. -/
inductive ChangesAlike : Except Stop Change → Except Stop Change → Prop
  | ok {c c' : Change} : c.taken = c'.taken → c.update.Alike c'.update →
      ChangesAlike (.ok c) (.ok c')
  | error {stop : Stop} : ChangesAlike (.error stop) (.error stop)

theorem checked_alike {c c' : Change} (hs : s.shape = s'.shape) (htaken : c.taken = c'.taken)
    (hu : c.update.Alike c'.update) : ChangesAlike (c.checked s) (c'.checked s') := by
  rw [Change.checked, Change.checked, ← htaken, Operands.length_eq_of_shape_eq hs]
  split
  · exact .ok htaken hu
  · exact .error

/-- Operations that look at the stack themselves see its shape. -/
theorem changeOf_alike (hs : s.shape = s'.shape) (action : Action) (ins : Instruction) :
    ChangesAlike (action.changeOf ins s) (action.changeOf ins s') := by
  have hshortfall : s.shortfall = s'.shortfall := by
    rw [Operands.shortfall, Operands.shortfall, Operands.length_eq_of_shape_eq hs]
  unfold Action.changeOf
  split
  · rw [hshortfall, Operands.countWords?_congr hs]
    cases s'.countWords? 0 2 with
    | none => exact .error
    | some n => exact .ok rfl ⟨rfl, rfl, rfl⟩
  · next top under =>
    rw [hshortfall, Operands.countWords?_congr hs]
    cases s'.countWords? 0 top with
    | none => exact .error
    | some n =>
        simp only [Operands.countWords?_congr hs]
        cases s'.countWords? n under with
        | none => exact .error
        | some m =>
            refine .ok rfl ⟨?_, rfl, rfl⟩
            simp only [Operands.shape_append, Operands.shape_take, Operands.shape_drop, hs]
  · next desc _ =>
    cases MethodDescriptor.parse desc with
    | error err => exact .error
    | ok m => exact checked_alike hs rfl ⟨rfl, rfl, rfl⟩
  · next desc _ =>
    cases MethodDescriptor.parse desc with
    | error err => exact .error
    | ok m => exact checked_alike hs rfl ⟨rfl, rfl, rfl⟩
  · next desc dims =>
    cases FieldType.validate desc with
    | error err => exact .error
    | ok =>
        simp only
        split
        · exact .error
        · exact checked_alike hs rfl ⟨rfl, rfl, rfl⟩
  · exact .error

theorem operation_change_alike (hsites : e.sites = e'.sites) (hs : s.shape = s'.shape)
    {o : Operation} {ins : Instruction} (hperforms : ins.Performs o.action)
    (hload : e.LoadAlike e' ins) : ChangesAlike (o.change e ins s) (o.change e' ins s') := by
  unfold Operation.change
  split
  · exact changeOf_alike hs o.action ins
  · next pops pushes _ =>
    rw [Operands.length_eq_of_shape_eq hs]
    split
    · have hargs : Operands.shape (s.take pops) = Operands.shape (s'.take pops) := by
        rw [Operands.shape_take, Operands.shape_take, hs]
      have hruns := Action.run_alike o.action ins hsites hargs
        fun kind implied slot haction hslot => hload kind implied slot (haction ▸ hperforms) hslot
      generalize o.action.run e ins (s.take pops) = r at hruns
      generalize o.action.run e' ins (s'.take pops) = r' at hruns
      cases hruns with
      | ok hu => exact .ok rfl hu
      | error => exact .error
    · exact .error

/-- An instruction is applied to two stacks of one shape with the same outcome. -/
theorem apply_alike (h : e.Alike e') (index : Nat) (ins : Option Instruction)
    (hload : ∀ i ∈ ins, ∀ s s', e.stack = some s → e'.stack = some s' → e.LoadAlike e' i) :
    EndAlike (e.apply index ins) (e'.apply index ins) := by
  have hstacks := h.stack
  rcases hstack : e.stack with _ | s <;> rcases hstack' : e'.stack with _ | s' <;>
    simp only [hstack, hstack', Option.map_some, Option.map_none] at hstacks
  · obtain ⟨stop, -, -, happly⟩ := exists_apply_of_no_stack index ins
    rw [happly e hstack, happly e' hstack']
    exact ⟨h, rfl⟩
  · cases hstacks
  · cases hstacks
  · have hs : s.shape = s'.shape := Option.some.inj hstacks
    cases ins with
    | none => exact ⟨h, rfl⟩
    | some ins =>
        cases hop : ins.opcode.operation? with
        | none =>
            simp only [apply, hop]
            exact ⟨h, rfl⟩
        | some o =>
            by_cases hform : ins.form = o.form
            · have hchanges := operation_change_alike h.sites hs ⟨o, hop, hform, rfl⟩
                (hload ins rfl s s' hstack hstack')
              rcases hchange : o.change e ins s with (f | c) | c <;>
                rcases hchange' : o.change e' ins s' with (f' | c') | c' <;>
                rw [hchange, hchange'] at hchanges <;> cases hchanges
              · rw [apply_of_fault hstack hop hform index hchange,
                  apply_of_fault hstack' hop hform index hchange']
                exact ⟨h, rfl⟩
              · rw [apply_of_crash hstack hop hform index hchange,
                  apply_of_crash hstack' hop hform index hchange']
                refine ⟨h.withStack ?_, rfl⟩
                rw [Operands.shape_drop, Operands.shape_drop, hs]
              · next htaken hu =>
                rw [apply_of_ok hstack hop hform index hchange,
                  apply_of_ok hstack' hop hform index hchange']
                exact ⟨h.change hs htaken hu, rfl⟩
            · simp only [apply, hop, ne_eq, hform, not_false_eq_true, if_true]
              exact ⟨h, rfl⟩

/-! ## Events -/

def ReplyAlike (r r' : Engine × Reply) : Prop := r.1.Alike r'.1 ∧ r.2.result = r'.2.result

theorem receiveMethod_alike (e e' : Engine) (m : MethodInfo) :
    ReplyAlike (e.receiveMethod m) (e'.receiveMethod m) := by
  unfold receiveMethod declare
  cases MethodDescriptor.parse m.descriptor with
  | error err => exact ⟨⟨rfl, rfl, rfl, rfl, rfl, rfl, rfl, rfl, rfl⟩, rfl⟩
  | ok d => exact ⟨⟨rfl, rfl, rfl, rfl, rfl, rfl, rfl, rfl, rfl⟩, rfl⟩

theorem receiveParameter_alike (h : e.Alike e') (name : Text) :
    ReplyAlike (e.receiveParameter name) (e'.receiveParameter name) := by
  unfold receiveParameter
  rw [h.sticky, h.descriptor, h.names, h.method]
  cases e'.sticky with
  | some f => exact ⟨h, rfl⟩
  | none =>
      cases e'.descriptor with
      | none => exact ⟨h, rfl⟩
      | some d =>
          simp only
          split
          · exact ⟨{ h with method := rfl, descriptor := rfl, names := rfl, sticky := rfl }, rfl⟩
          · exact ⟨{ h with method := rfl, descriptor := rfl, names := rfl, sticky := rfl }, rfl⟩

theorem receiveCode_alike (h : e.Alike e') : ReplyAlike e.receiveCode e'.receiveCode := by
  unfold receiveCode
  rw [h.sticky, h.descriptor, h.names, h.method]
  cases e'.sticky with
  | some f => exact ⟨h, rfl⟩
  | none =>
      cases e'.descriptor with
      | none => exact ⟨h, rfl⟩
      | some d =>
          simp only
          split
          · exact ⟨{ h with method := rfl, descriptor := rfl, names := rfl, sticky := rfl }, rfl⟩
          · exact ⟨{ h with
              phase := rfl, method := rfl, descriptor := rfl, names := rfl, sticky := rfl
              stack := rfl }, rfl⟩

theorem receiveLabel_alike (h : e.Alike e') : ReplyAlike e.receiveLabel e'.receiveLabel := by
  unfold receiveLabel
  rw [h.sticky]
  cases e'.sticky with
  | some f => exact ⟨h, rfl⟩
  | none => exact ⟨{ h with sticky := rfl }, rfl⟩

theorem receiveFinish_alike (h : e.Alike e') : ReplyAlike e.receiveFinish e'.receiveFinish := by
  have hstacks := h.stack
  unfold receiveFinish
  rw [h.phase, h.sticky]
  split
  · rcases hstack : e.stack with _ | s <;> rcases hstack' : e'.stack with _ | s' <;>
      simp only [hstack, hstack', Option.map_some, Option.map_none] at hstacks
    · exact ⟨h, rfl⟩
    · cases hstacks
    · cases hstacks
    · exact ⟨{ h with phase := rfl, stack := rfl, sticky := rfl }, rfl⟩
  · exact ⟨{ h with phase := rfl, sticky := rfl }, rfl⟩

theorem receiveInstruction_alike (h : e.Alike e') {ins : Option Instruction}
    (hload : ∀ i ∈ ins, ∀ s s', e.sticky = none → e.stack = some s → e'.stack = some s' →
      e.LoadAlike e' i) :
    ReplyAlike (e.receiveInstruction ins) (e'.receiveInstruction ins) := by
  rcases hsticky : e.sticky with _ | f
  · rw [receiveInstruction_eq hsticky, receiveInstruction_eq (h.sticky ▸ hsticky), ← h.count]
    have hcounted : e.counted.Alike e'.counted := { h with count := congrArg (· + 1) h.count }
    obtain ⟨halike, hstop⟩ := apply_alike hcounted e.count ins
      fun i hi s s' hs hs' => hload i hi s s' hsticky hs hs'
    generalize e.counted.apply e.count ins = r at halike hstop
    generalize e'.counted.apply e.count ins = r' at halike hstop
    obtain ⟨e₁, stop⟩ := r
    obtain ⟨e₁', stop'⟩ := r'
    obtain rfl : stop = stop' := hstop
    rcases stop with _ | f | c
    · simp only
      refine ⟨?_, by rw [applied_result, applied_result]⟩
      rw [applied_eq, applied_eq]
      exact { halike with }
    · exact ⟨{ halike with sticky := rfl }, rfl⟩
    · exact ⟨halike, rfl⟩
  · have hsticky' : e'.sticky = some f := h.sticky ▸ hsticky
    simp only [receiveInstruction, hsticky, hsticky']
    exact ⟨h, rfl⟩

theorem objection?_alike (h : e.Alike e') (ev : Event) : e.objection? ev = e'.objection? ev := by
  simp only [objection?, h.phase]

theorem receive_alike (h : e.Alike e') {ev : Event} (hobject : e.objection? ev = none)
    (hload : ∀ ins s s', ev = .instruction (some ins) → e.Ready s → e'.Ready s' →
      e.LoadAlike e' ins) :
    ReplyAlike (e.receive ev) (e'.receive ev) := by
  cases ev with
  | method m => exact receiveMethod_alike e e' m
  | parameter name _ => exact receiveParameter_alike h name
  | code => exact receiveCode_alike h
  | label _ => exact receiveLabel_alike h
  | finish => exact receiveFinish_alike h
  | instruction ins =>
      have hphase : e.phase = .inCode := by simpa [objection?] using hobject
      refine receiveInstruction_alike h ?_
      rintro i rfl s s' hsticky hs hs'
      exact hload i s s' rfl ⟨hphase, hsticky, hs⟩ ⟨h.phase ▸ hphase, h.sticky ▸ hsticky, hs'⟩

end

end Engine

/-! ## Loads that fit their opcodes -/

/-- Words of the values that a load is for: two for longs and doubles, else one. -/
def Opcode.loadWidth? (op : Opcode) : Option Nat :=
  if 0x15 ≤ op.code && op.code ≤ 0x2D then
    if op.code = 0x16 || op.code = 0x18 || (0x1E ≤ op.code && op.code ≤ 0x21) ||
        (0x26 ≤ op.code && op.code ≤ 0x29) then some 2
    else some 1
  else none

def Action.loadKind? : Action → Option Text
  | .load kind _ => some kind
  | _ => none

theorem Operation.loadWidth?_eq : ∀ p ∈ Operation.all.zipIdx, ∀ kind ∈ p.1.action.loadKind?,
    Opcode.loadWidth? ⟨.ofNat p.2⟩ = some (Value.typed kind).category := by
  decide +kernel

theorem Instruction.Performs.loadWidth? {ins : Instruction} {kind : Text} {implied : Option Nat}
    (h : ins.Performs (.load kind implied)) :
    ins.opcode.loadWidth? = some (Value.typed kind).category := by
  obtain ⟨o, hop, -, haction⟩ := h
  have hwidth := Operation.loadWidth?_eq _ (List.mk_mem_zipIdx_iff_getElem?.2 hop) kind
    (by rw [haction]; rfl)
  rwa [UInt8.ofNat_toNat] at hwidth

namespace Engine

def top? (e : Engine) : Option Value := e.stack.bind (·.head?)

section
variable {σ : Type}

/-- If the event is a load and is accepted, the value it pushes has the width of its opcode. -/
def LoadFits (next : Option (Visitor σ)) (st : Engine × σ) : Event → Prop
  | .instruction (some ins) =>
      (frontOf next st (.instruction (some ins))).2.result = none →
        ∀ width ∈ ins.opcode.loadWidth?,
          (frontOf next st (.instruction (some ins))).1.1.top?.map Value.category = some width
  | _ => True

instance (next : Option (Visitor σ)) (st : Engine × σ) :
    (ev : Event) → Decidable (LoadFits next st ev)
  | .instruction (some _) => inferInstanceAs (Decidable (_ → ∀ width ∈ _, _))
  | .instruction none => inferInstanceAs (Decidable True)
  | .method _ => inferInstanceAs (Decidable True)
  | .parameter _ _ => inferInstanceAs (Decidable True)
  | .code => inferInstanceAs (Decidable True)
  | .label _ => inferInstanceAs (Decidable True)
  | .finish => inferInstanceAs (Decidable True)

def LoadsFit (next : Option (Visitor σ)) : Engine × σ → List Event → Prop
  | _, [] => True
  | st, ev :: evs => LoadFits next st ev ∧ LoadsFit next (frontOf next st ev).1 evs

instance (next : Option (Visitor σ)) :
    (st : Engine × σ) → (evs : List Event) → Decidable (LoadsFit next st evs)
  | _, [] => inferInstanceAs (Decidable True)
  | st, ev :: evs =>
      have := instDecidableLoadsFit next (frontOf next st ev).1 evs
      inferInstanceAs (Decidable (LoadFits next st ev ∧ LoadsFit next (frontOf next st ev).1 evs))

variable {next : Option (Visitor σ)} {e e' : Engine} {t : σ} {ev : Event}

theorem LoadFits.loadWidth? {s : Operands} {ins : Instruction} {kind : Text} {implied : Option Nat}
    {slot : Int} (hfit : LoadFits next (e, t) (.instruction (some ins))) (hready : e.Ready s)
    (hpasses : Passes next t (.instruction (some ins)))
    (hperforms : ins.Performs (.load kind implied)) (hslot : slotOf ins implied = .ok slot) :
    ins.opcode.loadWidth? = some (e.loaded slot kind).category := by
  obtain ⟨e₁, hadvance, hstack⟩ := exists_advance_of_load hperforms hslot e s
  obtain ⟨hvisit, hengine⟩ := hadvance.visit hready
  have haccepted : (frontOf next (e, t) (.instruction (some ins))).2.result = none :=
    frontOf_accepted_iff.2 ⟨hvisit, hpasses⟩
  have hwidth := hfit haccepted _ hperforms.loadWidth?
  rw [frontOf_accepted haccepted, hengine, top?, hstack] at hwidth
  rw [hperforms.loadWidth?, ← hwidth]
  rfl

theorem frontOf_alike (h : e.Alike e') (hfit : LoadFits next (e, t) ev)
    (hfit' : LoadFits next (e', t) ev) :
    (frontOf next (e, t) ev).1.1.Alike (frontOf next (e', t) ev).1.1 ∧
      (frontOf next (e, t) ev).1.2 = (frontOf next (e', t) ev).1.2 ∧
      (frontOf next (e, t) ev).2.result = (frontOf next (e', t) ev).2.result := by
  rcases hobject : e.objection? ev with _ | f
  · have hobject' : e'.objection? ev = none := objection?_alike h ev ▸ hobject
    have hreceive (hpasses : Passes next t ev) : ReplyAlike (e.receive ev) (e'.receive ev) := by
      refine receive_alike h hobject ?_
      rintro ins s s' rfl hready hready' kind implied slot hperforms hslot
      have hwidth := hfit.loadWidth? hready hpasses hperforms hslot
      rw [hfit'.loadWidth? hready' hpasses hperforms hslot] at hwidth
      exact (Option.some.inj hwidth).symm
    cases next with
    | none =>
        obtain ⟨halike, hresult⟩ := hreceive (by simp [Passes])
        simp only [frontOf, visit_eq_receive hobject, visit_eq_receive hobject']
        exact ⟨halike, trivial, hresult⟩
    | some visit =>
        simp only [frontOf, behind, relay, hobject, hobject']
        rcases hnext : (visit t ev).2.result with _ | stop
        · obtain ⟨halike, hresult⟩ := hreceive (by simp [Passes, hnext])
          exact ⟨halike, rfl, hresult⟩
        · exact ⟨h, rfl, rfl⟩
  · have hobject' : e'.objection? ev = some f := objection?_alike h ev ▸ hobject
    rw [frontOf_of_objection hobject, frontOf_of_objection hobject']
    exact ⟨h, rfl, rfl⟩

/-- Whole runs of engines that are alike, by induction on the events. -/
theorem after_alike {evs : List Event} (h : e.Alike e') (hfit : LoadsFit next (e, t) evs)
    (hfit' : LoadsFit next (e', t) evs) :
    ((frontOf next).replies (e, t) evs).map (·.result) =
        ((frontOf next).replies (e', t) evs).map (·.result) ∧
      ∀ done, done <+: evs →
        ((frontOf next).after (e, t) done).1.Alike ((frontOf next).after (e', t) done).1 := by
  induction evs generalizing e e' t with
  | nil =>
      refine ⟨rfl, ?_⟩
      intro done hdone
      rw [List.prefix_nil.1 hdone]
      exact h
  | cons ev evs ih =>
      obtain ⟨hfit, hrest⟩ := hfit
      obtain ⟨hfit', hrest'⟩ := hfit'
      obtain ⟨halike, hbehind, hresult⟩ := frontOf_alike h hfit hfit'
      have hstate : (frontOf next (e', t) ev).1 =
          ((frontOf next (e', t) ev).1.1, (frontOf next (e, t) ev).1.2) := by rw [hbehind]
      rw [hstate] at hrest'
      obtain ⟨hresults, hstates⟩ := ih halike hrest hrest'
      simp only [Visitor.replies, List.map_cons]
      rw [hresult, hstate]
      refine ⟨congrArg _ hresults, ?_⟩
      intro done hdone
      cases done with
      | nil => exact h
      | cons ev' done =>
          obtain ⟨rfl, htail⟩ := List.cons_prefix_cons.1 hdone
          rw [Visitor.after_cons, Visitor.after_cons, hstate]
          exact hstates done htail

end

/-- Whether an engine tracks local variables or not, it comes to the same verdicts on all events,
as long as loads push values of the widths of their opcodes. After each event the two engines are
in the same phase, have counted as many instructions, and have entries and return values of the
same categories. -/
theorem tracking_keeps_verdicts {σ : Type} (next : Option (Visitor σ)) (t : σ) (config : Config)
    (evs : List Event)
    (htracked : LoadsFit next (new { config with trackLocals := true }, t) evs)
    (huntracked : LoadsFit next (new { config with trackLocals := false }, t) evs) :
    let tracked := (new { config with trackLocals := true }, t)
    let untracked := (new { config with trackLocals := false }, t)
    ((frontOf next).replies tracked evs).map (·.result) =
        ((frontOf next).replies untracked evs).map (·.result) ∧
      ∀ done, done <+: evs →
        let e := ((frontOf next).after tracked done).1
        let e' := ((frontOf next).after untracked done).1
        e.phase = e'.phase ∧ e.count = e'.count ∧ e.sticky = e'.sticky ∧
          e.stack.map (·.map Value.category) = e'.stack.map (·.map Value.category) ∧
          e.returned.map Value.category = e'.returned.map Value.category := by
  intro tracked untracked
  have halike : tracked.1.Alike untracked.1 := ⟨rfl, rfl, rfl, rfl, rfl, rfl, rfl, rfl, rfl⟩
  obtain ⟨hresults, hstates⟩ := after_alike halike htracked huntracked
  refine ⟨hresults, ?_⟩
  intro done hdone
  have h := hstates done hdone
  exact ⟨h.phase, h.count, h.sticky, h.stack, h.returned⟩

/-- Stores and reloads a long, and a reference that is constructed in between, returns the latter,
and then drops more words than there are. -/
def storeAndReload : List Event :=
  [.method { name := "m", descriptor := "()V" }, .code,
    .instruction (some (.plain ⟨0x0A⟩)), .instruction (some (.plain ⟨0x40⟩)),
    .instruction (some (.plain ⟨0x1F⟩)),
    .instruction (some (.type .new "A")), .instruction (some (.plain ⟨0x59⟩)),
    .instruction (some (.var ⟨0x3A⟩ 5)),
    .instruction (some (.method .invokespecial "A" "<init>" "()V" false)),
    .instruction (some (.var ⟨0x19⟩ 5)), .instruction (some (.plain ⟨0xB0⟩)),
    .instruction (some (.plain ⟨0x58⟩)), .instruction (some (.plain ⟨0x58⟩)), .finish]

/-- The engine that does not track returns a reference it knows nothing of. The other one knows its
type; they have the same fault at the same instruction. -/
theorem tracking_keeps_verdicts_reloads :
    let tracked := (new { ({} : Config) with trackLocals := true }, ())
    let untracked := (new { ({} : Config) with trackLocals := false }, ())
    LoadsFit none tracked storeAndReload ∧ LoadsFit none untracked storeAndReload ∧
      ((frontOf none).replies tracked storeAndReload).map (·.result) =
        ((frontOf none).replies untracked storeAndReload).map (·.result) ∧
      (((frontOf none).after tracked storeAndReload).1.returned,
        ((frontOf none).after untracked storeAndReload).1.returned,
        ((frontOf none).after tracked storeAndReload).1.sticky) =
        (some (.typed "LA;"), some (.typed []), some (.underflowAt ⟨0x58⟩ 10 ⟨0, 1⟩)) := by
  intro tracked untracked
  have htracked : LoadsFit none tracked storeAndReload := by decide +kernel
  have huntracked : LoadsFit none untracked storeAndReload := by decide +kernel
  obtain ⟨hresults, -⟩ := tracking_keeps_verdicts none () {} storeAndReload htracked huntracked
  exact ⟨htracked, huntracked, hresults, by decide +kernel⟩

end Engine

end OperandStack
