import OperandStack.Proofs.Observers

/-!
# Events refused behind an engine

The visitor behind an engine may refuse what is passed on to it, now and then and for reasons of
its own. The engine drops such an event: it goes on as if it had never been given the event, and
its observers do not hear of it. An event that the engine objects to is not passed on, so it cannot
be refused behind it, and takes its usual course.
-/

namespace OperandStack

namespace Reply

/-- The calls of the observers of the engine that was addressed. -/
def ownCalls (reply : Reply) : List HookCall := (reply.hooks.filter (·.1 = 0)).map (·.2)

theorem ownCalls_below (reply : Reply) : reply.below.ownCalls = [] := by
  have hnone : reply.below.hooks.filter (·.1 = 0) = [] := by
    rw [List.filter_eq_nil_iff]
    intro p hp
    obtain ⟨q, -, rfl⟩ := List.mem_map.1 hp
    simp
  rw [ownCalls, hnone]
  rfl

theorem ownCalls_followedBy (r s : Reply) :
    (r.followedBy s).ownCalls = r.ownCalls ++ s.ownCalls := by
  simp [ownCalls, followedBy]

end Reply

namespace Engine

theorem ownCalls_observe (e : Engine) (call : HookCall) :
    ((e.observe call).filter (·.1 = 0)).map (·.2) = (e.observe call).map (·.2) := by
  unfold observe
  split <;> rfl

theorem visit_ownCalls (e : Engine) (ev : Event) :
    (e.visit ev).2.ownCalls = (e.visit ev).2.hooks.map (·.2) := by
  rcases hobject : e.objection? ev with _ | f
  · rw [visit_eq_receive hobject]
    cases ev with
    | method m =>
        simp only [receive, receiveMethod, declare]
        split <;> exact ownCalls_observe e _
    | parameter name _ =>
        simp only [receive, receiveParameter]
        repeat' split
        all_goals rfl
    | code =>
        simp only [receive, receiveCode]
        repeat' split
        all_goals rfl
    | label name =>
        simp only [receive, receiveLabel]
        split <;> rfl
    | instruction ins =>
        simp only [receive, receiveInstruction]
        split
        · rfl
        · unfold told
          split
          · next e' _ =>
            simp only [applied]
            split <;> exact ownCalls_observe e' _
          · next e' f _ => exact ownCalls_observe e' _
          · rfl
    | finish =>
        simp only [receive, receiveFinish]
        split
        · split
          · rfl
          · exact ownCalls_observe e _
        · rfl
  · simp only [visit, hobject]
    rfl

section
variable {σ : Type}

def refusedBehind (next : Visitor σ) (st : Engine × σ) (ev : Event) : Bool :=
  st.1.admits ev && (next st.2 ev).2.result.isSome

/-- The events that are not refused behind the engine, with the replies to them. -/
def unrefused (next : Visitor σ) : Engine × σ → List Event → List (Event × Reply)
  | _, [] => []
  | st, ev :: evs =>
      let (st', reply) := behind next st ev
      (if refusedBehind next st ev then [] else [(ev, reply)]) ++ unrefused next st' evs

theorem unrefused_cons (next : Visitor σ) (st : Engine × σ) (ev : Event) (evs : List Event) :
    unrefused next st (ev :: evs) =
      (if refusedBehind next st ev then [] else [(ev, (behind next st ev).2)]) ++
        unrefused next (behind next st ev).1 evs :=
  rfl

/-- The engine drops an event that is refused behind it and takes all others as it would alone. -/
theorem behind_cases (next : Visitor σ) (e : Engine) (t : σ) (ev : Event) :
    refusedBehind next (e, t) ev = true ∧ (behind next (e, t) ev).2.ownCalls = [] ∧
        (∃ t', (behind next (e, t) ev).1 = (e, t')) ∨
      refusedBehind next (e, t) ev = false ∧
        (behind next (e, t) ev).2.ownCalls = (e.visit ev).2.ownCalls ∧
        (behind next (e, t) ev).2.result = (e.visit ev).2.result ∧
        ∃ t', (behind next (e, t) ev).1 = ((e.visit ev).1, t') := by
  simp only [refusedBehind, admits, behind, relay, visit]
  rcases hobject : e.objection? ev with _ | f
  · rcases hresult : (next t ev).2.result with _ | stop
    · refine .inr ⟨rfl, ?_, rfl, _, rfl⟩
      simp only [Reply.ownCalls_followedBy, Reply.ownCalls_below, List.nil_append]
    · exact .inl ⟨rfl, Reply.ownCalls_below _, _, rfl⟩
  · exact .inr ⟨rfl, rfl, rfl, _, rfl⟩

/-- Events that are refused behind an engine leave no trace in it. After any events it is what an
engine with nothing behind it is after those of them that were not refused. Both reply to these with
the same results, and their observers are told the same. -/
theorem refused_events_leave_no_trace (next : Visitor σ) (e : Engine) (t : σ) (evs : List Event) :
    let kept := unrefused next (e, t) evs
    let alone := Visitor.replies visit e (kept.map (·.1))
    ((behind next).after (e, t) evs).1 = Visitor.after visit e (kept.map (·.1)) ∧
      kept.map (·.2.result) = alone.map (·.result) ∧
      ((behind next).replies (e, t) evs).flatMap Reply.ownCalls = observed alone := by
  induction evs generalizing e t with
  | nil => exact ⟨rfl, rfl, rfl⟩
  | cons ev evs ih =>
      rw [Visitor.after_cons, Visitor.replies, List.flatMap_cons, unrefused_cons]
      rcases behind_cases next e t ev with
        ⟨hrefused, hcalls, t', hstate⟩ | ⟨hkept, hcalls, hresult, t', hstate⟩
      · rw [hrefused, hcalls, hstate]
        exact ih e t'
      · obtain ⟨hafter, hresults, hobserved⟩ := ih (e.visit ev).1 t'
        rw [hkept, if_neg Bool.false_ne_true, List.singleton_append, hcalls, hstate, visit_ownCalls]
        refine ⟨hafter, ?_, ?_⟩
        · simp only [List.map_cons, Visitor.replies, hresult, hresults]
        · rw [hobserved]
          simp [observed, Visitor.replies]

end

end Engine

end OperandStack
