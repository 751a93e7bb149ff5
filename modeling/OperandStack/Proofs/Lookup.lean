import OperandStack.Analysis.Schedule
import OperandStack.Proofs.Body
import OperandStack.Proofs.Cache

/-!
# Descriptor lookups

An event that asks for a descriptor does with the answer of the parser what it does on its own
(`Engine.visit_eq_resume`). A cache to which nothing but answers of the parser has been added is
coherent, and stays so whatever is looked up. If it gives only what was added, an engine beside it
therefore does what it does without one, and so does an analysis (`analyzeCached_eq`).
-/

namespace OperandStack

/-! ## Events that ask -/

namespace Engine

/-- Operations without fixed counts are executed as they are. -/
theorem apply_of_isDynamic {e : Engine} {ins : Instruction} {action : Action}
    (h : ins.Performs action) (hdynamic : action.isDynamic = true) (index : Nat) :
    e.apply index (some ins) = (Work.execute action ins []).on ins.opcode index e := by
  obtain ⟨o, hop, hform, rfl⟩ := h
  have hcounts := (Operation.counts_eq_none_iff o (List.mem_of_getElem? hop)).2 hdynamic
  simp only [apply_eq_perform hop hform, Operation.perform, hcounts]

/-- An event that asks for a descriptor goes on with what the parser makes of it. -/
theorem visit_eq_resume {e : Engine} {ev : Event} {desc : Text} (h : e.consults? ev = some desc) :
    e.visit ev = e.resume ev (MethodDescriptor.parse desc) := by
  unfold consults? at h
  split at h
  · next m =>
    cases h
    rfl
  · next ins =>
    split at h
    · next hcode =>
      simp only [Bool.and_eq_true, decide_eq_true_eq, Option.isNone_iff_eq_none] at hcode
      obtain ⟨hphase, hsticky⟩ := hcode
      rw [visit_eq_receive (objection?_instruction hphase _), receive,
        receiveInstruction_eq hsticky]
      cases ins with
      | method op owner name desc' interface =>
          obtain ⟨⟨o, hop, hform⟩, rfl⟩ :
              (∃ o, op.operation? = some o ∧ o.form = .method) ∧ desc' = desc := by
            simpa [Instruction.lookedUp?, Option.any_eq_true] using h
          have haction := Operation.action_of_form_method o (List.mem_of_getElem? hop) hform
          have hperforms : (Instruction.method op owner name desc' interface).Performs .invoke :=
            ⟨o, hop, hform.symm, haction⟩
          rw [apply_of_isDynamic hperforms rfl]
          rfl
      | invokeDynamic name desc' bootstrap =>
          cases h
          have hperforms :
              (Instruction.invokeDynamic name desc bootstrap).Performs .invokeDynamic :=
            ⟨_, rfl, rfl, rfl⟩
          rw [apply_of_isDynamic hperforms rfl]
          rfl
      | _ => cases h
    · cases h
  · cases h

end Engine

/-! ## The cache -/

namespace DescriptorCache

variable {σ : Type} {store : Store σ} {c : DescriptorCache σ} {desc : Text}

/-- Nothing has been added but what the parser makes of a descriptor. -/
def Coherent (store : Store σ) (c : DescriptorCache σ) : Prop :=
  ∃ calls, c.kept = store.after calls ∧
    ∀ desc object, .add desc object ∈ calls → MethodDescriptor.parse desc = .ok object.parsed

theorem coherent_empty (store : Store σ) : (empty store).Coherent store := ⟨[], rfl, nofun⟩

/-- One more call keeps a cache coherent, unless it adds something else. -/
theorem Coherent.call (h : c.Coherent store) (call : Cache.Call Text SharedDescriptor)
    (hcall : ∀ desc object, call = .add desc object →
      MethodDescriptor.parse desc = .ok object.parsed) (made : Nat) :
    Coherent store { kept := store.call c.kept call, made } := by
  obtain ⟨calls, hkept, hadded⟩ := h
  refine ⟨calls ++ [call], ?_, fun desc object hmem => ?_⟩
  · rw [Cache.after_snoc, hkept]
  · rcases List.mem_append.1 hmem with hearlier | hlast
    · exact hadded desc object hearlier
    · exact hcall desc object (List.mem_singleton.1 hlast).symm

theorem Coherent.get? (h : c.Coherent store) (desc : Text) :
    (c.get? store desc).1.Coherent store :=
  h.call (.get desc) nofun _

theorem Coherent.add (h : c.Coherent store) {object : SharedDescriptor}
    (hobject : MethodDescriptor.parse desc = .ok object.parsed) :
    (c.add store desc object).Coherent store := by
  refine h.call (.add desc object) (fun desc' object' heq => ?_) _
  cases heq
  exact hobject

theorem Coherent.purge (h : c.Coherent store) : (c.purge store).Coherent store :=
  h.call .purge nofun _

theorem kept_parse (c : DescriptorCache σ) (desc : Text) : (c.parse desc).1.kept = c.kept := by
  unfold parse
  split <;> rfl

theorem map_parse (c : DescriptorCache σ) (desc : Text) :
    (c.parse desc).2.map (·.parsed) = MethodDescriptor.parse desc := by
  unfold parse
  split
  · next m hm => exact hm.symm
  · next e he => exact he.symm

theorem Coherent.parse (h : c.Coherent store) (desc : Text) :
    (c.parse desc).1.Coherent store := by
  obtain ⟨calls, hkept, hadded⟩ := h
  exact ⟨calls, (c.kept_parse desc).trans hkept, hadded⟩

theorem Coherent.parse_of_get? (h : c.Coherent store) (hstore : store.GivesAdded)
    {object : SharedDescriptor} (hfound : (c.get? store desc).2 = some object) :
    MethodDescriptor.parse desc = .ok object.parsed := by
  obtain ⟨calls, hkept, hadded⟩ := h
  have hfound : (store.get c.kept desc).2 = some object := hfound
  rw [hkept] at hfound
  exact hadded desc object (hstore calls desc object hfound)

/-- A lookup in a coherent cache gives what the parser would. -/
theorem Coherent.lookup (h : c.Coherent store) (hstore : store.GivesAdded) (desc : Text) :
    (c.lookup store desc).1.Coherent store ∧
      (c.lookup store desc).2.parsed = MethodDescriptor.parse desc := by
  have hgot := h.get? desc
  unfold DescriptorCache.lookup
  split
  · next c' object hget =>
    rw [hget] at hgot
    have hfound : (c.get? store desc).2 = some object := congrArg Prod.snd hget
    exact ⟨hgot, (h.parse_of_get? hstore hfound).symm⟩
  · next c' hget =>
    rw [hget] at hgot
    have hmade := hgot.parse desc
    have hparsed := map_parse c' desc
    split
    · next c'' object hparse =>
      rw [hparse] at hmade hparsed
      exact ⟨hmade.add hparsed.symm, hparsed⟩
    · next c'' e hparse =>
      rw [hparse] at hmade hparsed
      exact ⟨hmade, hparsed⟩

theorem after_snoc (store : Store σ) (calls : List Call) (call : Call) :
    after store (calls ++ [call]) = (after store calls).call store call := by
  simp [after]

theorem coherent_after (hstore : store.GivesAdded) (calls : List Call) :
    (after store calls).Coherent store := by
  induction calls using List.reverseRecOn with
  | nil => exact coherent_empty store
  | append_singleton calls call ih =>
      rw [after_snoc]
      cases call with
      | lookup desc => exact (ih.lookup hstore desc).1
      | purge => exact ih.purge

end DescriptorCache

/-! ## Analysis with a cache -/

section
variable {σ : Type} {store : DescriptorCache.Store σ} {cache : DescriptorCache σ}

namespace Engine

/-- Beside a coherent cache an engine does what it does on its own. -/
theorem visitCached_eq (hstore : store.GivesAdded) (h : cache.Coherent store) (e : Engine)
    (ev : Event) :
    ∃ cache', cache'.Coherent store ∧
      visitCached store (e, cache) ev = (((e.visit ev).1, cache'), (e.visit ev).2) := by
  cases hasks : e.consults? ev with
  | none => exact ⟨cache, h, by simp only [visitCached, hasks]⟩
  | some desc =>
      obtain ⟨hcache, hanswer⟩ := h.lookup hstore desc
      refine ⟨_, hcache, ?_⟩
      simp only [visitCached, hasks, hanswer, ← visit_eq_resume hasks]

theorem deliver_visitCached (hstore : store.GivesAdded) (h : cache.Coherent store) (stop : Bool)
    (e : Engine) (evs : List (Option Event)) :
    ∃ cache', deliver (visitCached store) stop (e, cache) evs =
      (((deliver visit stop e evs).1, cache'), (deliver visit stop e evs).2) := by
  induction evs generalizing e cache with
  | nil => exact ⟨cache, rfl⟩
  | cons ev evs ih =>
      cases ev with
      | none => exact ⟨cache, rfl⟩
      | some ev =>
          obtain ⟨cache', hcache, hvisit⟩ := visitCached_eq hstore h e ev
          obtain ⟨cache'', hrest⟩ := ih hcache (e.visit ev).1
          simp only [deliver, hvisit, hrest]
          rcases (e.visit ev).2.result with _ | f | c
          · exact ⟨cache'', rfl⟩
          · cases stop
            · exact ⟨cache'', rfl⟩
            · exact ⟨cache', rfl⟩
          · exact ⟨cache', rfl⟩

end Engine

theorem analyzeCached_eq (hstore : store.GivesAdded) (h : cache.Coherent store) (config : Config)
    (src : Source) : (analyzeCached store config src cache).1 = analyze config src := by
  obtain ⟨cache', hdeliver⟩ :=
    Engine.deliver_visitCached hstore h src.stop (Engine.forAnalysis config) src.events
  simp only [analyzeCached, analyze, Source.replay, hdeliver]

end

end OperandStack
