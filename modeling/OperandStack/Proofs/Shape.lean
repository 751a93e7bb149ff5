import OperandStack.Proofs.Acceptance
import OperandStack.Proofs.Safety

/-!
# Shapes of listed instructions

The reader of listings and the engine each go by the form of an opcode. Whatever labels have been
met, an instruction that has been read has a known opcode, the form of that opcode and all operands
of the form (`Instruction.WellShaped`).

The events of a listed method are in order, and a declaration starts an engine anew. So a listed
method that is delivered to any engine fails for few reasons, which `Fault.isAdmissible` lists
(`listed_instructions_fit_engines`).
-/

namespace OperandStack

/-! ## Words -/

theorem Utf8.Piece.bytes_ne_nil (p : Utf8.Piece) : p.bytes ≠ [] := by
  cases p with
  | stray b => simp [bytes]
  | char c => simp [bytes, Text.ofChar]

theorem Utf8.fieldPieces_ne_nil (ps : List Utf8.Piece) : [] ∉ Utf8.fieldPieces ps := by
  fun_induction Utf8.fieldPieces ps <;> simp_all

theorem Text.fields_ne_nil {t word : Text} (h : word ∈ Text.fields t) : word ≠ [] := by
  obtain ⟨run, hrun, rfl⟩ := List.mem_map.1 h
  cases run with
  | nil => exact absurd hrun (Utf8.fieldPieces_ne_nil _)
  | cons p run =>
      intro hnil
      exact p.bytes_ne_nil (List.append_eq_nil_iff.1 hnil).1

/-! ## Instructions -/

namespace Instruction

variable {L M : Type}

/-- No operand is missing, and the keys of a switch ascend with a label for each. -/
def Complete : Instruction L → Prop
  | .type _ name => name ≠ []
  | .jump _ target => target.isSome
  | .tableSwitch _ _ targets fallback => fallback.isSome ∧ ∀ target ∈ targets, target.isSome
  | .lookupSwitch keys targets fallback =>
      fallback.isSome ∧ (∀ target ∈ targets, target.isSome) ∧ keys.Pairwise (· < ·) ∧
        targets.length = keys.length
  | .foreign _ _ => False
  | _ => True

/-- The opcode is in use, its form is that of the instruction, and the operands are there. -/
structure WellShaped (ins : Instruction L) : Prop where
  operation : ∃ o, ins.opcode.operation? = some o ∧ ins.form = o.form
  complete : ins.Complete

theorem complete_map {f : L → M} {ins : Instruction L} : (ins.map f).Complete ↔ ins.Complete := by
  cases ins with
  | jump | tableSwitch | lookupSwitch => simp [Complete]
  | _ => exact Iff.rfl

theorem wellShaped_map {f : L → M} {ins : Instruction L} :
    (ins.map f).WellShaped ↔ ins.WellShaped := by
  constructor
  · rintro ⟨hop, hcomplete⟩
    rw [opcode_map, form_map] at hop
    exact ⟨hop, complete_map.1 hcomplete⟩
  · rintro ⟨hop, hcomplete⟩
    refine ⟨?_, complete_map.2 hcomplete⟩
    rwa [opcode_map, form_map]

end Instruction

theorem Opcode.operation?_of_ofMnemonic? {name : Text} {op : Opcode}
    (h : Opcode.ofMnemonic? name = some op) : ∃ o, op.operation? = some o := by
  obtain ⟨i, hi, rfl⟩ := Option.map_eq_some_iff.1 h
  have hlt : i < Operation.all.length := (List.findIdx?_eq_some_iff_findIdx_eq.1 hi).1
  have hlength : Operation.all.length = 202 := by decide +kernel
  have hcode : i.toUInt8.toNat = i := by
    rw [Nat.toUInt8_eq, UInt8.toNat_ofNat']
    omega
  refine ⟨Operation.all[i], ?_⟩
  rw [operation?, hcode]
  exact List.getElem?_eq_getElem hlt

namespace Line

theorem exists_of_bind_eq_ok {α β : Type} {x : Except LineProblem α} {f : α → Except LineProblem β}
    {b : β} (h : x >>= f = .ok b) : ∃ a, x = .ok a ∧ f a = .ok b := by
  cases x with
  | error p => cases h
  | ok a => exact ⟨a, rfl, h⟩

variable {op : Opcode} {o : Operation} {args : List Text} {ins : Instruction Text}

theorem readCases_ascending {last : Option Int} {words : List Text} {cases : List (Int × Text)}
    (h : readCases last words = (cases, none)) :
    (∀ key ∈ last, ∀ c ∈ cases, key < c.1) ∧ (cases.map (·.1)).Pairwise (· < ·) := by
  induction words generalizing last cases with
  | nil =>
      cases h
      simp
  | cons word rest ih =>
      simp only [readCases] at h
      split at h
      · cases h
      · next key target _ =>
        split at h
        · cases h
        · next hlast =>
          cases hrest : readCases (some key) rest with
          | mk tail problem =>
              rw [hrest] at h
              cases h
              obtain ⟨habove, hsorted⟩ := ih hrest
              have hkeys : ∀ c ∈ tail, key < c.1 := habove key rfl
              have hnext : ∀ l ∈ last, l < key := by
                rintro l rfl
                simpa using hlast
              refine ⟨fun l hl => List.forall_mem_cons.2 ⟨hnext l hl, ?_⟩, ?_⟩
              · intro c hc
                have hlt := hnext l hl
                have hlt' := hkeys c hc
                omega
              · exact List.pairwise_cons.2 ⟨by simpa using hkeys, hsorted⟩

theorem readTable_shaped (h : readTable args = .ok ins) : ins.WellShaped := by
  unfold readTable at h
  dsimp only at h
  repeat' split at h
  all_goals cases h
  exact ⟨⟨_, rfl, rfl⟩, rfl, List.forall_mem_map.2 fun _ _ => rfl⟩

theorem readLookup_shaped (h : (readLookup args).result = .ok (.instruction ins)) :
    ins.WellShaped := by
  unfold readLookup at h
  split at h
  · next fallback mark words _ =>
    split at h
    · cases h
    · split at h
      · next cases hcases =>
        cases h
        exact ⟨⟨_, rfl, rfl⟩, rfl, List.forall_mem_map.2 fun _ _ => rfl,
          (readCases_ascending hcases).2, by simp⟩
      · cases h
  · cases h

theorem readCallSite_shaped (h : readCallSite op args = .ok ins) : ins.WellShaped := by
  unfold readCallSite at h
  split at h
  · cases h
    exact ⟨⟨_, rfl, rfl⟩, trivial⟩
  · next name desc word bootstrap =>
    obtain ⟨member, -, hins⟩ := exists_of_bind_eq_ok h
    cases hins
    exact ⟨⟨_, rfl, rfl⟩, trivial⟩
  · cases h

theorem readOperands_shaped (hop : op.operation? = some o) (hargs : ∀ word ∈ args, word ≠ [])
    (h : readOperands op args = .ok ins) : ins.WellShaped := by
  have hform : op.form = o.form := by simp only [Opcode.form, hop]
  unfold readOperands at h
  rw [hform] at h
  dsimp only at h
  split at h
  case h_1 hinsn =>
    cases h
    exact ⟨⟨o, hop, hinsn.symm⟩, trivial⟩
  case h_3 word hint =>
    obtain ⟨n, -, hins⟩ := exists_of_bind_eq_ok h
    cases hins
    exact ⟨⟨o, hop, hint.symm⟩, trivial⟩
  case h_5 word hvar =>
    split at h
    · cases h
      exact ⟨⟨o, hop, hvar.symm⟩, trivial⟩
    · cases h
  case h_7 slot inc _ =>
    split at h
    · cases h
      exact ⟨⟨_, rfl, rfl⟩, trivial⟩
    · cases h
  case h_9 name htype =>
    cases h
    exact ⟨⟨o, hop, htype.symm⟩, hargs name (by simp)⟩
  case h_11 word desc hfield =>
    obtain ⟨member, -, hins⟩ := exists_of_bind_eq_ok h
    cases hins
    exact ⟨⟨o, hop, hfield.symm⟩, trivial⟩
  case h_13 word desc hmethod =>
    obtain ⟨member, -, hins⟩ := exists_of_bind_eq_ok h
    cases hins
    exact ⟨⟨o, hop, hmethod.symm⟩, trivial⟩
  case h_15 => exact readCallSite_shaped h
  case h_16 target hjump =>
    cases h
    exact ⟨⟨o, hop, hjump.symm⟩, rfl⟩
  case h_18 => exact readTable_shaped h
  case h_19 desc word _ =>
    split at h
    · cases h
      exact ⟨⟨_, rfl, rfl⟩, trivial⟩
    · cases h
  -- The other operands are too many or too few.
  all_goals cases h

theorem Reading.ofInstruction_result {r : Except LineProblem (Instruction Text)}
    (h : (Reading.ofInstruction r).result = .ok (.instruction ins)) : r = .ok ins := by
  cases r with
  | error p => cases h
  | ok ins' =>
      cases h
      rfl

theorem readInstruction_shaped (hop : op.operation? = some o) {rest : Text}
    (h : (readInstruction op rest).result = .ok (.instruction ins)) : ins.WellShaped := by
  have hform : op.form = o.form := by simp only [Opcode.form, hop]
  unfold readInstruction at h
  rw [hform] at h
  split at h
  · next hldc =>
    obtain ⟨c, -, hins⟩ := exists_of_bind_eq_ok (Reading.ofInstruction_result h)
    cases hins
    exact ⟨⟨o, hop, hldc.symm⟩, trivial⟩
  · exact readLookup_shaped h
  · exact readOperands_shaped hop (fun _ hword => Text.fields_ne_nil hword)
      (Reading.ofInstruction_result h)

theorem decode_shaped {line : Text} (h : decode line = .ok (.instruction ins)) :
    ins.WellShaped := by
  rw [decode_eq_result] at h
  rcases read_cases line with ⟨p, hread⟩ | ⟨name, hread⟩ | ⟨op, rest, hnames⟩
  · rw [hread] at h
    cases h
  · rw [hread] at h
    cases h
  · obtain ⟨word, -, -, hop, -⟩ := hnames.mnemonic
    obtain ⟨o, ho⟩ := Opcode.operation?_of_ofMnemonic? hop
    rw [hnames.read_eq] at h
    exact readInstruction_shaped ho h

end Line

theorem LabelTable.decode_of_enter {t : LabelTable} {line : Text} {el : CodeElement}
    (h : (t.enter (Line.read line)).2 = .ok el) : Line.decode line = .ok el.named := by
  rcases t.enter_cases line with ⟨el', hdecode, -, henter⟩ | ⟨-, p, henter⟩
  · rw [henter] at h
    cases h
    rw [hdecode, named_map_object]
  · cases henter.symm.trans h

/-! ## Delivery -/

/-- The faults that well shaped instructions can run into. -/
def Fault.isAdmissible : Fault → Bool
  | .declaration _ _ => true
  | .member _ _ _ _ => true
  | .callSite _ _ => true
  | .arrayDescriptor _ => true
  | .surplusName _ _ => true
  | .underflowAt _ _ _ => true
  | .malformed _ why => why.isRange
  | _ => false

theorem Instruction.Refusal.isAdmissible {ins : Instruction} {f : Fault}
    (h : Instruction.Refusal (some ins) f) (hshaped : ins.WellShaped) : f.isAdmissible := by
  obtain ⟨o, hop, hform⟩ := hshaped.operation
  have hcomplete := hshaped.complete
  cases h with
  | undefined hnone => cases hnone.symm.trans hop
  | form hop' hne =>
      cases hop'.symm.trans hop
      exact absurd hform hne
  | range hrange => exact hrange
  | noTarget => cases hcomplete
  | noType => exact absurd rfl hcomplete
  | member => rfl
  | callSite => rfl
  | arrayDescriptor => rfl

def Event.WellShaped : Event → Prop
  | .instruction (some ins) => ins.WellShaped
  | .instruction none => False
  | _ => True

theorem Event.WellShaped.isClosed {ev : Event} (h : ev.WellShaped) : ev.isClosed := by
  cases ev with
  | instruction ins =>
      cases ins with
      | none => cases h
      | some ins =>
          have hcomplete := h.complete
          cases ins with
          | foreign => cases hcomplete
          | _ => rfl
  | _ => rfl

theorem outcome_singleton (r : Reply) : outcome [r] = r.result := by
  obtain ⟨_ | _ | _, hooks, logs⟩ := r <;> rfl

theorem outcome_cons_of_accepted {r : Reply} (h : r.result = none) (rs : List Reply) :
    outcome (r :: rs) = outcome rs := by
  cases rs with
  | nil => exact (outcome_singleton r).trans h
  | cons r' rs => simp [outcome, h]

theorem outcome_deliver_cons {σ : Type} (visit : Visitor σ) (st : σ) (ev : Event)
    (rest : List (Option Event)) :
    outcome (deliver visit true st (some ev :: rest)).2 =
      (visit st ev).2.result.or (outcome (deliver visit true (visit st ev).1 rest).2) := by
  rcases hresult : (visit st ev).2.result with _ | f | c
  · simp only [deliver, hresult, outcome_cons_of_accepted hresult, Option.none_or]
  · simp [deliver, hresult, outcome_singleton]
  · simp [deliver, hresult, outcome_singleton]

theorem outcome_mem_replies {σ : Type} {visit : Visitor σ} {st : σ} {evs : List Event} {stop : Stop}
    (h : outcome (deliver visit true st (evs.map some)).2 = some stop) :
    ∃ r ∈ visit.replies st evs, r.result = some stop := by
  induction evs generalizing st with
  | nil => cases h
  | cons ev evs ih =>
      rw [List.map_cons, outcome_deliver_cons, Option.or_eq_some_iff] at h
      rcases h with hresult | ⟨-, hrest⟩
      · exact ⟨_, List.mem_cons_self, hresult⟩
      · obtain ⟨r, hr, hresult⟩ := ih hrest
        exact ⟨r, List.mem_cons_of_mem _ hr, hresult⟩

open Protocol

/-- The phase of an engine that has been given events in order. -/
def Protocol.Position.phase : Position → Phase
  | .outside => .unattached
  | .declared => .inMethod
  | .coded => .inCode

namespace Engine

/-- An engine that is in step with events in order and has not been stopped. -/
structure Unstopped (e : Engine) (p : Position) : Prop where
  promises : e.Promises
  phase : e.phase = p.phase
  sticky : e.sticky = none

section
variable {e e' : Engine} {p q : Position} {ev : Event} {result : Option Stop}

theorem Unstopped.objection? (h : e.Unstopped p) (hnext : p.next ev = some q) :
    e.objection? ev = none := by
  have hphase := h.phase
  cases ev <;> cases p <;> simp [Position.next] at hnext <;>
    simp [Engine.objection?, hphase, Position.phase]

/-- A declaration starts anew, whatever the engine was doing. -/
theorem receiveMethod_cases (e : Engine) (m : MethodInfo) :
    (e.receiveMethod m).1.Promises ∧
      ((∃ err, (e.receiveMethod m).2.result = some (.fault (.declaration m.name err))) ∨
        (e.receiveMethod m).2.result = none ∧ (e.receiveMethod m).1.Unstopped .declared) := by
  unfold receiveMethod declare
  split
  · next err _ => exact ⟨⟨nofun, nofun, Nat.zero_le _, nofun⟩, .inl ⟨err, rfl⟩⟩
  · refine ⟨?_, .inr ⟨rfl, ?_, rfl, rfl⟩⟩
    all_goals exact ⟨fun _ _ => rfl, nofun, Nat.zero_le _, nofun⟩

theorem Transition.unstopped (h : e.Transition ev e' result) (hresult : result = none)
    (hu : e.Unstopped p) (hnext : p.next ev = some q) : e'.Unstopped q := by
  have hpromises := h.promises hu.promises
  cases h with
  | declared =>
      cases p <;> cases hnext <;> exact ⟨hpromises, rfl, rfl⟩
  | named =>
      cases p <;> cases hnext
      exact ⟨hpromises, hu.phase, hu.sticky⟩
  | code =>
      cases p <;> cases hnext
      exact ⟨hpromises, rfl, hu.sticky⟩
  | label =>
      cases p <;> cases hnext
      exact ⟨hpromises, hu.phase, hu.sticky⟩
  | applied =>
      cases p <;> cases hnext
      exact ⟨hpromises, hu.phase, hu.sticky⟩
  | finished =>
      obtain ⟨-, rfl⟩ := Position.next_finish hnext
      exact ⟨hpromises, rfl, hu.sticky⟩
  | _ => cases hresult

theorem Transition.isAdmissible {f : Fault} (h : e.Transition ev e' result)
    (hresult : result = some (.fault f)) (hu : e.Unstopped p) (hnext : p.next ev = some q)
    (hev : ev.WellShaped) : f.isAdmissible := by
  cases h with
  | refused hf =>
      rcases hf with hobject | hsticky
      · cases (hu.objection? hnext).symm.trans hobject
      · cases hu.sticky.symm.trans hsticky
  | misdeclared =>
      cases hresult
      rfl
  | surplus =>
      cases hresult
      rfl
  | unplaced _ hd hnone => exact absurd hnone (hu.promises.layout hd)
  | @faulted ins _ _ hf =>
      cases hresult
      rcases hf with hrefused | ⟨op, u, rfl⟩
      · cases ins with
        | none => cases hev
        | some ins => exact hrefused.isAdmissible hev
      · rfl
  | finished =>
      rw [hu.sticky] at hresult
      cases hresult
  | _ => cases hresult

/-- Events in order, none of them badly shaped, fail for admissible reasons. -/
theorem Unstopped.outcome_isAdmissible {evs : List Event} {f : Fault} (h : e.Unstopped p)
    (hrun : (p.run evs).isSome) (hevs : ∀ ev ∈ evs, ev.WellShaped)
    (hf : outcome (deliver visit true e (evs.map some)).2 = some (.fault f)) :
    f.isAdmissible := by
  induction evs generalizing e p with
  | nil => cases hf
  | cons ev evs ih =>
      obtain ⟨hev, hrest⟩ := List.forall_mem_cons.1 hevs
      have hstep := e.visit_transition ev
      rw [Position.run_cons] at hrun
      cases hnext : p.next ev with
      | none =>
          rw [hnext] at hrun
          cases hrun
      | some q =>
          rw [hnext, Option.bind_some] at hrun
          rw [List.map_cons, outcome_deliver_cons, Option.or_eq_some_iff] at hf
          rcases hf with hresult | ⟨hresult, hlater⟩
          · exact hstep.isAdmissible hresult h hnext hev
          · exact ih (hstep.unstopped hresult h hnext) hrun hrest hlater

/-- Whatever an engine was doing, a method delivered to it fails for admissible reasons. -/
theorem outcome_of_method_isAdmissible {m : MethodInfo} {evs : List Event} {f : Fault}
    (hrun : (Position.run .declared evs).isSome) (hevs : ∀ ev ∈ evs, ev.WellShaped)
    (hf : outcome (deliver visit true e ((.method m :: evs).map some)).2 = some (.fault f)) :
    f.isAdmissible := by
  rw [List.map_cons, outcome_deliver_cons, visit_method] at hf
  rcases (e.receiveMethod_cases m).2 with ⟨err, hresult⟩ | ⟨hresult, hunstopped⟩
  · rw [hresult, Option.some_or] at hf
    cases hf
    rfl
  · rw [hresult, Option.none_or] at hf
    exact hunstopped.outcome_isAdmissible hrun hevs hf

theorem outcome_of_method_ne_crash {m : MethodInfo} {evs : List Event}
    (hevs : ∀ ev ∈ evs, ev.isClosed) (hcount : evs.length < Nat.pow 2 63) (c : Crash) :
    outcome (deliver visit true e ((.method m :: evs).map some)).2 ≠ some (.crash c) := by
  intro hcrash
  obtain ⟨hpromises, hcases⟩ := e.receiveMethod_cases m
  obtain ⟨r, hr, hresult⟩ := outcome_mem_replies hcrash
  rcases List.mem_cons.1 hr with rfl | hr
  · rw [visit_method] at hresult
    rcases hcases with ⟨err, hfault⟩ | ⟨hnone, -⟩
    · cases hfault.symm.trans hresult
    · cases hnone.symm.trans hresult
  · have hsites := e.receiveMethod_sites m
    have hbound : 0 + evs.length < Nat.pow 2 63 := by omega
    exact hpromises.replies_ne_crash hevs (by omega) (by omega) hbound r hr c hresult

end

end Engine

namespace ListedMethod

theorem whole (m : ListedMethod) : Whole m.events := by
  have hparams : ∀ ev ∈ m.parameters.map (Event.parameter · .empty), ev.isParameter :=
    List.forall_mem_map.2 fun _ _ => rfl
  unfold events
  cases m.code with
  | none =>
      rw [List.append_nil]
      exact .declaration hparams
  | some lines =>
      refine .body hparams (List.forall_mem_map.2 fun l _ => ?_)
      cases l.element <;> rfl

theorem exists_events_eq_cons (m : ListedMethod) :
    ∃ info rest, m.events = .method info :: rest :=
  ⟨_, _, rfl⟩

theorem wellShaped_of_mem_events {m : ListedMethod}
    (h : ∀ l ∈ m.lines, ∃ line, Line.decode line = .ok l.element.named) :
    ∀ ev ∈ m.events, ev.WellShaped := by
  have hcode : ∀ l ∈ m.lines, l.element.event.WellShaped := by
    intro l hl
    obtain ⟨line, hdecode⟩ := h l hl
    cases hel : l.element with
    | label name => trivial
    | instruction ins =>
        rw [hel] at hdecode
        exact Instruction.wellShaped_map.1 (Line.decode_shaped hdecode)
  have hparams : ∀ ev ∈ m.parameters.map (Event.parameter · .empty), ev.WellShaped :=
    List.forall_mem_map.2 fun _ _ => trivial
  unfold lines at hcode
  unfold events
  cases hbody : m.code with
  | none =>
      rw [List.append_nil]
      exact List.forall_mem_append.2
        ⟨List.forall_mem_cons.2 ⟨trivial, hparams⟩, List.forall_mem_singleton.2 trivial⟩
  | some lines =>
      rw [hbody, Option.getD_some] at hcode
      refine List.forall_mem_append.2
        ⟨List.forall_mem_append.2 ⟨?_, ?_⟩, List.forall_mem_singleton.2 trivial⟩
      · exact List.forall_mem_cons.2 ⟨trivial, hparams⟩
      · exact List.forall_mem_cons.2 ⟨trivial, List.forall_mem_map.2 hcode⟩

end ListedMethod

/-- The elements of an accepted method have been decoded from lines. -/
theorem Document.exists_line_of_check {d : Document} {c : ListedClass} (h : d.check = .ok c)
    {m : ListedMethod} (hm : m ∈ c.methods) {l : CodeLine} (hl : l ∈ m.lines) :
    ∃ line, Line.decode line = .ok l.element.named := by
  obtain ⟨hissues, rfl⟩ := Document.check_eq_ok_iff.1 h
  obtain ⟨e, he, rfl⟩ := List.mem_map.1 hm
  have hreads := ((Document.issues_eq_nil_iff d).1 hissues e he).reads d.owner
  obtain ⟨line, -, hdecode, -⟩ := CodeReading.exists_line_of_mem hreads hl
  exact ⟨line, hdecode⟩

/-- Instructions read from a listing have the shape that engines ask for, so that a listed method
fails for its descriptors, its names, its stack or a number out of range only. -/
theorem listed_instructions_fit_engines :
    (∀ (t : LabelTable) (line : Text) (ins : Instruction),
        (t.enter (Line.read line)).2 = .ok (.instruction ins) → ins.WellShaped) ∧
      ∀ (d : Document) (c : ListedClass), d.check = .ok c → ∀ m ∈ c.methods, ∀ e : Engine,
        (∀ f, outcome (m.source.replay Engine.visit e).2 = some (.fault f) → f.isAdmissible) ∧
          (m.events.length < Nat.pow 2 63 →
            ∀ crash, outcome (m.source.replay Engine.visit e).2 ≠ some (.crash crash)) := by
  refine ⟨fun t line ins h => ?_, ?_⟩
  · exact Instruction.wellShaped_map.1 (Line.decode_shaped (LabelTable.decode_of_enter h))
  intro d c hcheck m hm e
  have hshaped : ∀ ev ∈ m.events, ev.WellShaped :=
    ListedMethod.wellShaped_of_mem_events fun l hl => Document.exists_line_of_check hcheck hm hl
  obtain ⟨info, rest, hevents⟩ := m.exists_events_eq_cons
  have hrun := Position.run_whole .outside m.whole
  have hreplay : m.source.replay Engine.visit e =
      deliver Engine.visit true e (m.events.map some) := rfl
  rw [hevents] at hrun hshaped
  rw [hreplay, hevents]
  have hrest := (List.forall_mem_cons.1 hshaped).2
  refine ⟨fun f hf => ?_, fun hcount c => ?_⟩
  · exact Engine.outcome_of_method_isAdmissible (Option.isSome_of_eq_some hrun) hrest hf
  · rw [List.length_cons] at hcount
    exact Engine.outcome_of_method_ne_crash (fun ev hev => (hrest ev hev).isClosed) (by omega) c

/-- A body with an operand out of range, behind a switch that is well shaped. -/
def outOfRange : MethodEntry where
  name := "f"
  descriptor := "()V"
  code := some
    ["L0:", "new A", "pop", "iconst_0", "tableswitch 0 1 L0 L0 default L1", "L1:", "bipush 300"]

def stoppedEngine : Engine :=
  { Engine.new {} with phase := .inCode, sticky := some .tooManyParameters, sites := -5 }

def keyed : Instruction :=
  .lookupSwitch [-2, 7] [some ⟨0, "L0"⟩, some ⟨1, "L9"⟩] (some ⟨0, "L0"⟩)

theorem listed_instructions_fit_engines_outOfRange :
    ((LabelTable.enter ⟨["L0"], ["L0"]⟩ (Line.read " LOOKUPSWITCH -2:L0 7:L9 default L0")).2 =
        .ok (.instruction keyed) ∧ keyed.WellShaped) ∧
    Document.check ⟨"A", [outOfRange]⟩ = .ok ⟨"A", [outOfRange.read "A"]⟩ ∧
      outcome ((outOfRange.read "A").source.replay Engine.visit stoppedEngine).2 =
        some (.fault (.malformed .bipush (.byteRange 300))) ∧
      (Fault.malformed .bipush (.byteRange 300)).isAdmissible ∧
      (outOfRange.read "A").events.length < Nat.pow 2 63 ∧
      ∀ crash, outcome ((outOfRange.read "A").source.replay Engine.visit stoppedEngine).2 ≠
        some (.crash crash) := by
  have hline : (LabelTable.enter ⟨["L0"], ["L0"]⟩
      (Line.read " LOOKUPSWITCH -2:L0 7:L9 default L0")).2 = .ok (.instruction keyed) := by
    decide +kernel
  have hissues : Document.issues ⟨"A", [outOfRange]⟩ = [] :=
    (Document.issues_eq_nil_iff _).2 (by decide +kernel)
  have hcheck := Document.check_eq_ok_iff.2 ⟨hissues, rfl⟩
  have hfault : outcome ((outOfRange.read "A").source.replay Engine.visit stoppedEngine).2 =
      some (.fault (.malformed .bipush (.byteRange 300))) := by decide +kernel
  have hcount : (outOfRange.read "A").events.length < Nat.pow 2 63 := by decide +kernel
  obtain ⟨hread, hreplay⟩ := listed_instructions_fit_engines
  obtain ⟨hfaults, hcrashes⟩ :=
    hreplay _ _ hcheck (outOfRange.read "A") List.mem_cons_self stoppedEngine
  exact ⟨⟨hline, hread _ _ _ hline⟩, hcheck, hfault, hfaults _ hfault, hcount, hcrashes hcount⟩

end OperandStack
