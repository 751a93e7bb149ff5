import Mathlib.Algebra.GroupWithZero.Nat
import OperandStack.Proofs.Lookup

/-!
# Schedules of batches

The tasks of a batch share nothing but the descriptor cache, and the cache stays coherent whatever
they do to it. `Job.Faithful` says that a replay that has been interrupted will come to what the
analysis of its method comes to. A step of the job keeps that, however the cache has changed in
between (`Job.steps_of_step`, `Job.Steps.faithful`).

`Schedule.Moves` is all that a move can do. If the pool runs each task once, moves keep a batch
sound (`Schedule.Moves.sound`) and bring its end nearer (`Schedule.Moves.remaining_lt`), and while a
batch has not returned there is one that can be made, unless a crash has ended everything
(`Schedule.Sound.progress`). So every schedule ends, with the results of the methods analysed one by
one (`Schedule.batch_independent_of_schedule`).
-/

namespace OperandStack

variable {σ : Type} {store : DescriptorCache.Store σ}

/-! ## Jobs -/

namespace Job

variable {job job' : Job} {stop : Bool} {cache cache' : DescriptorCache σ}

/-- What the engine and the replies will have come to if the rest is delivered at once. -/
def outlook (job : Job) (stop : Bool) : Engine × List Reply :=
  let (e, replies) := deliver Engine.visit stop job.engine job.rest
  (e, job.replies ++ replies)

/-- A descriptor that is held is the one that the next event asks for. -/
def Prepared (job : Job) : Prop :=
  ∀ object, job.parsed = some object → ∀ ev later desc, job.rest = some ev :: later →
    job.engine.consults? ev = some desc → MethodDescriptor.parse desc = .ok object.parsed

/-- Moves that are left: two for each event, of which the first may have been made. -/
def remaining (job : Job) : Nat := 2 * job.rest.length - (if job.parsed.isSome then 1 else 0)

inductive Steps (job : Job) (stop : Bool) : Job → Prop
  | broken {later : List (Option Event)} : job.rest = none :: later →
      Steps job stop { job with rest := [], replies := job.replies ++ [.crash .codeElement] }
  | visited {ev : Event} {later : List (Option Event)} : job.rest = some ev :: later →
      Steps job stop (job.advance stop later (job.engine.visit ev))
  | parsed {ev : Event} {later : List (Option Event)} {desc : Text} {object : SharedDescriptor} :
      job.rest = some ev :: later → job.engine.consults? ev = some desc → job.parsed = none →
      MethodDescriptor.parse desc = .ok object.parsed →
      Steps job stop { job with parsed := some object }

/-- Whatever the cache holds and however it came to hold it, a job steps in the same ways, and the
cache stays coherent. -/
theorem steps_of_step (hstore : store.GivesAdded) (hcache : cache.Coherent store)
    (hjob : job.Prepared) (h : job.step store stop cache = some (job', cache')) :
    job.Steps stop job' ∧ cache'.Coherent store := by
  unfold step at h
  split at h
  · cases h
  · next later hrest =>
    cases h
    exact ⟨.broken hrest, hcache⟩
  · next ev later hrest =>
    split at h
    · cases h
      exact ⟨.visited hrest, hcache⟩
    · next desc hasks =>
      have hvisit := Engine.visit_eq_resume hasks
      split at h
      · next object hparsed =>
        cases h
        have hobject := hjob object hparsed ev later desc hrest hasks
        rw [← hobject, ← hvisit]
        exact ⟨.visited hrest, hcache.add hobject⟩
      · next hparsed =>
        have hgot := hcache.get? desc
        split at h
        · next c object hget =>
          cases h
          have hfound : (cache.get? store desc).2 = some object := congrArg Prod.snd hget
          rw [hget] at hgot
          rw [← hcache.parse_of_get? hstore hfound, ← hvisit]
          exact ⟨.visited hrest, hgot⟩
        · next c hget =>
          rw [hget] at hgot
          have hmade := hgot.parse desc
          have hanswer := DescriptorCache.map_parse c desc
          split at h
          · next c' object hparse =>
            cases h
            rw [hparse] at hmade hanswer
            exact ⟨.parsed hrest hasks hparsed hanswer.symm, hmade⟩
          · next c' err hparse =>
            cases h
            rw [hparse] at hmade hanswer
            have herr : MethodDescriptor.parse desc = .error err := hanswer.symm
            rw [← herr, ← hvisit]
            exact ⟨.visited hrest, hmade⟩

theorem step_eq_none (h : job.step store stop cache = none) : job.rest = [] := by
  unfold step at h
  split at h
  · assumption
  · cases h
  · repeat' split at h
    all_goals cases h

theorem outlook_advance {ev : Event} {later : List (Option Event)}
    (h : job.rest = some ev :: later) :
    (job.advance stop later (job.engine.visit ev)).outlook stop = job.outlook stop := by
  unfold outlook advance
  rw [h]
  rcases hresult : (job.engine.visit ev).2.result with _ | f | c
  · simp [deliver, hresult]
  · cases stop <;> simp [deliver, hresult]
  · simp [deliver, hresult]

/-- A job that comes to what the analysis of its method comes to. -/
structure Faithful (job : Job) (config : Config) (src : Source) : Prop where
  outlook : job.outlook src.stop = src.replay Engine.visit (Engine.forAnalysis config)
  prepared : job.Prepared

variable {config : Config} {src : Source}

theorem faithful_start (config : Config) (src : Source) :
    (start config src).Faithful config src where
  outlook := by simp [Job.outlook, start, Source.replay]
  prepared := nofun

theorem Steps.faithful (h : job.Steps src.stop job') (hjob : job.Faithful config src) :
    job'.Faithful config src := by
  cases h with
  | broken hrest =>
      have houtlook := hjob.outlook
      simp only [Job.outlook, hrest, deliver] at houtlook
      refine ⟨?_, fun m hm ev later desc hnil => by cases hnil⟩
      simpa [Job.outlook, deliver] using houtlook
  | visited hrest => exact ⟨(outlook_advance hrest).trans hjob.outlook, by rintro m ⟨⟩⟩
  | @parsed ev later desc m hrest hasks _ hm =>
      refine ⟨hjob.outlook, ?_⟩
      intro m' hm' ev' later' desc' hrest' hasks'
      cases hm'
      cases hrest.symm.trans hrest'
      cases hasks.symm.trans hasks'
      exact hm

theorem Steps.remaining_lt (h : job.Steps stop job') : job'.remaining < job.remaining := by
  cases h with
  | broken hrest =>
      simp only [remaining, hrest, List.length_nil, List.length_cons]
      split <;> omega
  | @visited ev later hrest =>
      have hle : (job.advance stop later (job.engine.visit ev)).rest.length ≤ later.length := by
        simp only [advance]
        repeat' split
        all_goals simp
      have hparsed : (job.advance stop later (job.engine.visit ev)).parsed = none := rfl
      simp only [remaining, hrest, hparsed, List.length_cons, Option.isSome_none,
        Bool.false_eq_true, if_false]
      split <;> omega
  | parsed hrest _ hnone _ =>
      simp only [remaining, hrest, hnone, List.length_cons, Option.isSome_none, Option.isSome_some,
        Bool.false_eq_true, if_false, if_true]
      omega

theorem Faithful.sumUp_eq (h : job.Faithful config src) (hrest : job.rest = []) :
    sumUp config src job.engine job.replies = analyze config src := by
  have houtlook := h.outlook
  simp only [Job.outlook, hrest, deliver, List.append_nil] at houtlook
  simp only [analyze, ← houtlook]

end Job

/-! ## Pools -/

theorem Pool.bounded_runsOnce {capacity : Int} (h : 0 < capacity) :
    (Pool.bounded capacity).RunsOnce where
  admits_refused past task why hopen := by simp [bounded, hopen]
  admits_accepted past task hopen hidle := by
    have hnone : inHand past = 0 := by
      refine List.countP_eq_zero.2 fun event hevent => ?_
      cases event with
      | accepted other => simpa using hidle other hevent
      | _ => simp
    simp [bounded, hopen, hnone, h]
  once past task hadmits := by simpa [bounded] using hadmits
  begins past task haccepted hbegun _ := ⟨task, by simp [bounded, haccepted, hbegun]⟩

/-! ## Batches -/

theorem Task.ne_of_isDone {task : Task} (h : task.isDone) :
    task ≠ .waiting ∧ task ≠ .submitted := by
  cases task with
  | finished | crashed => simp
  | _ => cases h

namespace Schedule

/-- Moves that the task of a method has left. -/
def taskRemaining : Source × Task → Nat
  | (src, .waiting) | (src, .submitted) => 2 * src.events.length + 2
  | (_, .running job) => job.remaining + 1
  | (_, .finished _) | (_, .crashed _) => 0

/-- A task comes, or has come, to what the analysis of its method comes to. -/
def TaskSound (config : Config) : Source × Task → Prop
  | (_, .waiting) | (_, .submitted) => True
  | (src, .running job) => job.Faithful config src
  | (src, .finished f) => ∃ a, analyze config src = .ok a ∧ a.finding = f
  | (src, .crashed c) => analyze config src = .error c

/-- What has happened to a task is what the pool has seen of it. -/
structure Recorded (past : List PoolEvent) (i : Nat) (task : Task) : Prop where
  accepted : .accepted i ∈ past ↔ task ≠ .waiting
  begun : .begun i ∈ past ↔ task ≠ .waiting ∧ task ≠ .submitted
  ended : .ended i ∈ past ↔ task.isDone

def Concerns (i : Nat) (event : PoolEvent) : Prop :=
  event = .accepted i ∨ event = .begun i ∨ event = .ended i

structure Sound (store : DescriptorCache.Store σ) (config : Config) (sources : List Source)
    (s : State σ) : Prop where
  sources : s.tasks.map (·.1) = sources
  cache : s.cache.Coherent store
  task : ∀ t ∈ s.tasks, TaskSound config t
  /-- Methods are submitted in order. -/
  handed : ∀ i t, s.tasks[i]? = some t → (t.2 = .waiting ↔ s.next ≤ i)
  next_le : s.next ≤ s.tasks.length
  stopped : ∀ k, s.stopped = some k → k = s.next ∧ s.cancelled ∧ s.admitted = false
  recorded : ∀ i t, s.tasks[i]? = some t → Recorded s.past i t.2
  known : ∀ event ∈ s.past, ∃ i, i < s.tasks.length ∧ Concerns i event

/-- Moves that are left: of who cancels, of the batch and of the tasks. -/
def State.remaining (s : State σ) : Nat :=
  (if s.cancelled then 0 else 1) +
    (if s.stopped.isSome then 0
      else 2 * (s.tasks.length - s.next) + (if s.admitted then 0 else 1)) +
    (s.tasks.map taskRemaining).sum

inductive Moves (store : DescriptorCache.Store σ) (pool : Pool) (config : Config) (s : State σ) :
    Move → State σ → Prop
  | cancelled : s.cancelled = false → Moves store pool config s .cancel { s with cancelled := true }
  | found : s.isHandedOut = false → s.admitted = false → s.cancelled →
      Moves store pool config s .look { s with stopped := some s.next }
  | admitted : s.isHandedOut = false → s.admitted = false → s.cancelled = false →
      Moves store pool config s .look { s with admitted := true }
  | submitted {src : Source} {task : Task} : s.tasks[s.next]? = some (src, task) → s.admitted →
      pool.admits s.past (.accepted s.next) →
      Moves store pool config s .submit
        { s with
          tasks := s.tasks.set s.next (src, .submitted)
          past := .accepted s.next :: s.past
          next := s.next + 1
          admitted := false }
  | refused {why : Text} {src : Source} {task : Task} : s.tasks[s.next]? = some (src, task) →
      s.admitted → pool.admits s.past (.refused s.next why) →
      Moves store pool config s (.refuse why)
        { s with
          tasks := s.tasks.set s.next (src, .finished (.ofRefused src why))
          past := .refused s.next why :: s.past
          next := s.next + 1
          admitted := false }
  | takenUp {i : Nat} {src : Source} : s.tasks[i]? = some (src, .submitted) →
      pool.admits s.past (.begun i) →
      Moves store pool config s (.takeUp i)
        { s with
          tasks := s.tasks.set i (src, .running (Job.start config src))
          past := .begun i :: s.past }
  | worked {i : Nat} {src : Source} {job job' : Job} {cache : DescriptorCache σ} :
      s.tasks[i]? = some (src, .running job) →
      job.step store src.stop s.cache = some (job', cache) →
      Moves store pool config s (.work i)
        { s with tasks := s.tasks.set i (src, .running job'), cache }
  | ended {i : Nat} {src : Source} {job : Job} :
      s.tasks[i]? = some (src, .running job) → job.step store src.stop s.cache = none →
      Moves store pool config s (.work i)
        { s with
          tasks := s.tasks.set i (src, job.outcome config src)
          past := .ended i :: s.past }

variable {pool : Pool} {config : Config} {s s' : State σ} {move : Move} {sources : List Source}

theorem State.isHandedOut_eq_false_iff :
    s.isHandedOut = false ↔ s.stopped = none ∧ s.next < s.tasks.length := by
  simp [isHandedOut]

theorem State.answered_eq_some {answer : PoolEvent} {task : Source → Task}
    (h : s.answered pool answer task = some s') :
    ∃ src old, s.tasks[s.next]? = some (src, old) ∧ s.admitted ∧ pool.admits s.past answer ∧
      s' = { s with
        tasks := s.tasks.set s.next (src, task src)
        past := answer :: s.past
        next := s.next + 1
        admitted := false } := by
  unfold State.answered at h
  split at h
  · next src old htask =>
    split at h
    · next hadmits =>
      cases h
      obtain ⟨hadmitted, hadmits⟩ := Bool.and_eq_true_iff.1 hadmits
      exact ⟨src, old, htask, hadmitted, hadmits, rfl⟩
    · cases h
  · cases h

theorem moves_of_step (h : step store pool config s move = some s') :
    Moves store pool config s move s' := by
  unfold step at h
  split at h
  · cases h
  cases move with
  | cancel =>
      simp only at h
      split at h
      · cases h
      · next hcancelled =>
        cases h
        exact .cancelled (Bool.eq_false_iff.2 hcancelled)
  | look =>
      simp only at h
      split at h
      · cases h
      · next hlooks =>
        obtain ⟨hout, hadmitted⟩ := Bool.or_eq_false_iff.1 (Bool.eq_false_iff.2 hlooks)
        split at h
        · next hcancelled =>
          cases h
          exact .found hout hadmitted hcancelled
        · next hcancelled =>
          cases h
          exact .admitted hout hadmitted (Bool.eq_false_iff.2 hcancelled)
  | submit =>
      obtain ⟨src, task, htask, hadmitted, hadmits, rfl⟩ := State.answered_eq_some h
      exact .submitted htask hadmitted hadmits
  | refuse why =>
      obtain ⟨src, task, htask, hadmitted, hadmits, rfl⟩ := State.answered_eq_some h
      exact .refused htask hadmitted hadmits
  | takeUp i =>
      simp only at h
      split at h
      · next src htask =>
        split at h
        · next hadmits =>
          cases h
          exact .takenUp htask hadmits
        · cases h
      · cases h
  | work i =>
      simp only at h
      split at h
      · next src job htask =>
        split at h
        · next job' cache hstep =>
          cases h
          exact .worked htask hstep
        · next hstep =>
          cases h
          exact .ended htask hstep
      · cases h

/-! ### Replacing the task of a method -/

section
variable {tasks : List (Source × Task)} {i : Nat} {src : Source} {task : Task}

theorem map_fst_set (h : tasks[i]? = some (src, task)) (task' : Task) :
    (tasks.set i (src, task')).map (·.1) = tasks.map (·.1) := by
  apply List.ext_getElem?
  intro j
  rw [List.getElem?_map, List.getElem?_map, List.getElem?_set]
  split
  · next hij =>
    subst hij
    rw [h]
    simp [(List.getElem?_eq_some_iff.1 h).1]
  · rfl

theorem taskSound_set {t' : Source × Task} (hold : ∀ t ∈ tasks, TaskSound config t)
    (hnew : TaskSound config t') : ∀ t ∈ tasks.set i t', TaskSound config t := by
  intro t ht
  rcases List.mem_or_eq_of_mem_set ht with hmem | rfl
  · exact hold t hmem
  · exact hnew

theorem taskRemaining_of_isDone (h : task.isDone) : taskRemaining (src, task) = 0 := by
  cases task with
  | finished | crashed => rfl
  | _ => cases h

theorem sum_remaining_set (h : tasks[i]? = some (src, task)) (t' : Source × Task) :
    ((tasks.set i t').map taskRemaining).sum + taskRemaining (src, task) =
      (tasks.map taskRemaining).sum + taskRemaining t' := by
  induction tasks generalizing i with
  | nil => simp at h
  | cons t tasks ih =>
      cases i with
      | zero =>
          cases h
          simp only [List.set_cons_zero, List.map_cons, List.sum_cons]
          omega
      | succ i =>
          have hrest := ih (i := i) (by simpa using h)
          simp only [List.set_cons_succ, List.map_cons, List.sum_cons]
          omega

theorem handed_set {n n' : Nat} (hlt : i < tasks.length) {t' : Source × Task}
    (hold : ∀ j t, tasks[j]? = some t → (t.2 = .waiting ↔ n ≤ j)) (hnew : t'.2 ≠ .waiting)
    (hi : i < n') (hn : ∀ j, j ≠ i → (n ≤ j ↔ n' ≤ j)) :
    ∀ j t, (tasks.set i t')[j]? = some t → (t.2 = .waiting ↔ n' ≤ j) := by
  intro j t ht
  rw [List.getElem?_set] at ht
  split at ht
  · next hij =>
    subst hij
    obtain rfl : t' = t := by simpa [hlt] using ht
    exact iff_of_false hnew (by omega)
  · next hij => rw [hold j t ht, hn j (fun h => hij h.symm)]

/-- What happens to one task is not recorded of another. -/
theorem Recorded.cons {past : List PoolEvent} {event : PoolEvent} {i j : Nat}
    (h : Recorded past j task) (hevent : Concerns i event) (hne : j ≠ i) :
    Recorded (event :: past) j task := by
  obtain ⟨haccepted, hbegun, hended⟩ := h
  rcases hevent with rfl | rfl | rfl
  all_goals
    constructor
    all_goals simpa [hne]

theorem Recorded.accept {past : List PoolEvent} (h : Recorded past i .waiting) :
    Recorded (.accepted i :: past) i .submitted where
  accepted := by simp
  begun := by simpa using h.begun
  ended := by simpa [Task.isDone] using h.ended

theorem Recorded.takeUp {past : List PoolEvent} (h : Recorded past i .submitted) (job : Job) :
    Recorded (.begun i :: past) i (.running job) where
  accepted := by simpa using h.accepted
  begun := by simp
  ended := by simpa [Task.isDone] using h.ended

theorem Recorded.work {past : List PoolEvent} {job : Job} (h : Recorded past i (.running job))
    (job' : Job) : Recorded past i (.running job') where
  accepted := by simpa using h.accepted
  begun := by simpa using h.begun
  ended := by simpa [Task.isDone] using h.ended

theorem Recorded.finish {past : List PoolEvent} {job : Job} (h : Recorded past i (.running job))
    (hdone : task.isDone) : Recorded (.ended i :: past) i task := by
  obtain ⟨hwaiting, hsubmitted⟩ := Task.ne_of_isDone hdone
  constructor
  · simpa [hwaiting] using h.accepted
  · simpa [hwaiting, hsubmitted] using h.begun
  · simpa using hdone

theorem recorded_set {past past' : List PoolEvent} {t' : Source × Task}
    (hold : ∀ j t, tasks[j]? = some t → Recorded past j t.2)
    (hothers : ∀ j, j ≠ i → ∀ task, Recorded past j task → Recorded past' j task)
    (hlt : i < tasks.length) (hnew : Recorded past' i t'.2) :
    ∀ j t, (tasks.set i t')[j]? = some t → Recorded past' j t.2 := by
  intro j t ht
  rw [List.getElem?_set] at ht
  split at ht
  · next hij =>
    subst hij
    obtain rfl : t' = t := by simpa [hlt] using ht
    exact hnew
  · next hij => exact hothers j (fun h => hij h.symm) _ (hold j t ht)

theorem known_cons {past : List PoolEvent} {event : PoolEvent} {n : Nat} (hlt : i < n)
    (hevent : Concerns i event) (h : ∀ event ∈ past, ∃ i, i < n ∧ Concerns i event) :
    ∀ e ∈ event :: past, ∃ i, i < n ∧ Concerns i e := by
  intro e he
  rcases List.mem_cons.1 he with rfl | he
  · exact ⟨i, hlt, hevent⟩
  · exact h e he

end

theorem sound_start {cache : DescriptorCache σ} (hcache : cache.Coherent store) (config : Config)
    (sources : List Source) : Sound store config sources (start sources cache) := by
  have hwaiting (i : Nat) (t : Source × Task) (ht : (start sources cache).tasks[i]? = some t) :
      t.2 = .waiting := by
    obtain ⟨src, -, rfl⟩ : ∃ src, sources[i]? = some src ∧ (src, Task.waiting) = t := by
      simpa [start] using ht
    rfl
  refine ⟨by simp [start, Function.comp_def], hcache, by simp [start, TaskSound], ?_,
    Nat.zero_le _, by rintro k ⟨⟩, ?_, List.forall_mem_nil _⟩
  · intro i t ht
    exact iff_of_true (hwaiting i t ht) (Nat.zero_le _)
  · intro i t ht
    rw [hwaiting i t ht]
    constructor <;> simp [start, Task.isDone]

theorem Sound.closed_not_mem (hs : Sound store config sources s) : .closed ∉ s.past := by
  intro hclosed
  obtain ⟨i, -, hevent⟩ := hs.known _ hclosed
  rcases hevent with h | h | h <;> cases h

theorem Sound.stopped_eq_none (hs : Sound store config sources s) (hadmitted : s.admitted) :
    s.stopped = none := by
  rw [Option.eq_none_iff_forall_ne_some]
  intro k hk
  cases hadmitted.symm.trans (hs.stopped k hk).2.2

theorem Sound.eq_waiting (hs : Sound store config sources s) {src : Source} {task : Task}
    (htask : s.tasks[s.next]? = some (src, task)) : task = .waiting :=
  (hs.handed s.next _ htask).2 (Nat.le_refl _)

theorem Sound.submit (hs : Sound store config sources s) {src : Source} {task : Task}
    (htask : s.tasks[s.next]? = some (src, task)) (hadmitted : s.admitted) :
    Sound store config sources
      { s with
        tasks := s.tasks.set s.next (src, .submitted)
        past := .accepted s.next :: s.past
        next := s.next + 1
        admitted := false } := by
  have hlt : s.next < s.tasks.length := (List.getElem?_eq_some_iff.1 htask).1
  have hothers : ∀ j, j ≠ s.next → (s.next ≤ j ↔ s.next + 1 ≤ j) := by omega
  have hrecorded := hs.recorded s.next _ htask
  rw [hs.eq_waiting htask] at hrecorded
  refine ⟨?_, hs.cache, taskSound_set hs.task trivial, ?_, ?_, ?_, ?_, ?_⟩
  · rw [map_fst_set htask]
    exact hs.sources
  · exact handed_set hlt hs.handed (by simp) (Nat.lt_succ_self _) hothers
  · rw [List.length_set]
    exact hlt
  · intro k hk
    cases (hs.stopped_eq_none hadmitted).symm.trans hk
  · exact recorded_set hs.recorded (fun j hj task h => h.cons (.inl rfl) hj) hlt hrecorded.accept
  · rw [List.length_set]
    exact known_cons hlt (.inl rfl) hs.known

/-- What a task becomes after it was submitted is again sound, if the pool has seen it. -/
theorem Sound.replace (hs : Sound store config sources s) {i : Nat} {src : Source}
    {old task : Task} {cache : DescriptorCache σ} {past : List PoolEvent}
    (htask : s.tasks[i]? = some (src, old)) (hold : old ≠ .waiting) (hcache : cache.Coherent store)
    (hsound : TaskSound config (src, task)) (hnew : task ≠ .waiting)
    (hothers : ∀ j, j ≠ i → ∀ task, Recorded s.past j task → Recorded past j task)
    (hrecorded : Recorded past i task)
    (hknown : ∀ event ∈ past, ∃ i, i < s.tasks.length ∧ Concerns i event) :
    Sound store config sources { s with tasks := s.tasks.set i (src, task), cache, past } where
  sources := by
    rw [map_fst_set htask]
    exact hs.sources
  cache := hcache
  task := taskSound_set hs.task hsound
  handed := by
    have hnext : i < s.next := by
      have hwaiting := hs.handed i _ htask
      simpa [hold] using hwaiting
    exact handed_set (List.getElem?_eq_some_iff.1 htask).1 hs.handed hnew hnext
      (fun _ _ => Iff.rfl)
  next_le := by
    rw [List.length_set]
    exact hs.next_le
  stopped := hs.stopped
  recorded := recorded_set hs.recorded hothers (List.getElem?_eq_some_iff.1 htask).1 hrecorded
  known := by
    rw [List.length_set]
    exact hknown

theorem Sound.job (hs : Sound store config sources s) {i : Nat} {src : Source} {job : Job}
    (htask : s.tasks[i]? = some (src, .running job)) : job.Faithful config src :=
  hs.task _ (List.mem_of_getElem? htask)

theorem outcome_sound {job : Job} {src : Source} (hjob : job.Faithful config src)
    (hrest : job.rest = []) :
    TaskSound config (src, job.outcome config src) ∧ (job.outcome config src).isDone := by
  have hsum := hjob.sumUp_eq hrest
  unfold Job.outcome
  split
  · next a ha => exact ⟨⟨a, hsum.symm.trans ha, rfl⟩, rfl⟩
  · next c hc => exact ⟨hsum.symm.trans hc, rfl⟩

/-- Every move keeps a batch sound. -/
theorem Moves.sound (hstore : store.GivesAdded) (hpool : pool.RunsOnce)
    (h : Moves store pool config s move s') (hs : Sound store config sources s) :
    Sound store config sources s' := by
  cases h with
  | cancelled =>
      refine { hs with stopped := ?_ }
      intro k hk
      obtain ⟨hnext, -, hadmitted⟩ := hs.stopped k hk
      exact ⟨hnext, rfl, hadmitted⟩
  | found _ hadmitted hcancelled =>
      refine { hs with stopped := ?_ }
      intro k hk
      cases hk
      exact ⟨rfl, hcancelled, hadmitted⟩
  | admitted hout =>
      refine { hs with stopped := ?_ }
      intro k hk
      cases (State.isHandedOut_eq_false_iff.1 hout).1.symm.trans hk
  | submitted htask hadmitted => exact hs.submit htask hadmitted
  | @refused why src task _ _ hadmits =>
      rw [hpool.admits_refused _ _ _ hs.closed_not_mem] at hadmits
      cases hadmits
  | @takenUp i src htask hadmits =>
      have hlt : i < s.tasks.length := (List.getElem?_eq_some_iff.1 htask).1
      exact hs.replace htask (by simp) hs.cache (Job.faithful_start config src) (by simp)
        (fun j hj task h => h.cons (.inr (.inl rfl)) hj) ((hs.recorded i _ htask).takeUp _)
        (known_cons hlt (.inr (.inl rfl)) hs.known)
  | @worked i src job job' cache htask hstep =>
      have hjob := hs.job htask
      obtain ⟨hsteps, hcache⟩ := Job.steps_of_step hstore hs.cache hjob.prepared hstep
      exact hs.replace htask (by simp) hcache (hsteps.faithful hjob) (by simp)
        (fun _ _ _ h => h) ((hs.recorded i _ htask).work job') hs.known
  | @ended i src job htask hstep =>
      have hlt : i < s.tasks.length := (List.getElem?_eq_some_iff.1 htask).1
      obtain ⟨hsound, hdone⟩ := outcome_sound (hs.job htask) (Job.step_eq_none hstep)
      exact hs.replace htask (by simp) hs.cache hsound (Task.ne_of_isDone hdone).1
        (fun j hj task h => h.cons (.inr (.inr rfl)) hj) ((hs.recorded i _ htask).finish hdone)
        (known_cons hlt (.inr (.inr rfl)) hs.known)

/-- Every move brings the end nearer. -/
theorem Moves.remaining_lt (hstore : store.GivesAdded) (hpool : pool.RunsOnce)
    (h : Moves store pool config s move s') (hs : Sound store config sources s) :
    s'.remaining < s.remaining := by
  cases h with
  | cancelled hcancelled =>
      simp only [State.remaining, hcancelled, if_true, Bool.false_eq_true, if_false]
      omega
  | found hout hadmitted hcancelled =>
      obtain ⟨hnone, hlt⟩ := State.isHandedOut_eq_false_iff.1 hout
      simp only [State.remaining, hnone, Option.isSome_some, Option.isSome_none, if_true,
        Bool.false_eq_true, if_false]
      omega
  | admitted hout hadmitted hcancelled =>
      obtain ⟨hnone, hlt⟩ := State.isHandedOut_eq_false_iff.1 hout
      simp only [State.remaining, hnone, hadmitted, Option.isSome_none, if_true,
        Bool.false_eq_true, if_false]
      omega
  | @submitted src task htask hadmitted _ =>
      have hlt : s.next < s.tasks.length := (List.getElem?_eq_some_iff.1 htask).1
      have hnone := hs.stopped_eq_none hadmitted
      cases hs.eq_waiting htask
      have hsum := sum_remaining_set htask (src, .submitted)
      simp only [taskRemaining] at hsum
      simp only [State.remaining, hnone, hadmitted, Option.isSome_none, if_true,
        Bool.false_eq_true, if_false, List.length_set]
      omega
  | @refused why src task _ _ hadmits =>
      rw [hpool.admits_refused _ _ _ hs.closed_not_mem] at hadmits
      cases hadmits
  | @takenUp i src htask _ =>
      have hsum := sum_remaining_set htask (src, .running (Job.start config src))
      have hstart : (Job.start config src).remaining = 2 * src.events.length := rfl
      simp only [taskRemaining, hstart] at hsum
      simp only [State.remaining, List.length_set]
      omega
  | @worked i src job job' cache htask hstep =>
      have hlt :=
        (Job.steps_of_step hstore hs.cache (hs.job htask).prepared hstep).1.remaining_lt
      have hsum := sum_remaining_set htask (src, .running job')
      simp only [taskRemaining] at hsum
      simp only [State.remaining, List.length_set]
      omega
  | @ended i src job htask hstep =>
      obtain ⟨-, hdone⟩ := outcome_sound (hs.job htask) (Job.step_eq_none hstep)
      have hsum := sum_remaining_set htask (src, job.outcome config src)
      rw [taskRemaining_of_isDone hdone] at hsum
      simp only [taskRemaining] at hsum
      simp only [State.remaining, List.length_set]
      omega

/-- What a schedule keeps, and how long it can be. -/
theorem sound_of_run (hstore : store.GivesAdded) (hpool : pool.RunsOnce) {moves : List Move}
    (h : run store pool config s moves = some s') (hs : Sound store config sources s) :
    Sound store config sources s' ∧ moves.length + s'.remaining ≤ s.remaining := by
  induction moves generalizing s with
  | nil =>
      cases h
      exact ⟨hs, by simp⟩
  | cons move moves ih =>
      obtain ⟨s₁, hstep, hrest⟩ := Option.bind_eq_some_iff.1 h
      have hmoves := moves_of_step hstep
      have hlt := hmoves.remaining_lt hstore hpool hs
      obtain ⟨hsound, hle⟩ := ih hrest (hmoves.sound hstore hpool hs)
      refine ⟨hsound, ?_⟩
      rw [List.length_cons]
      omega

theorem mem_of_run_cancelled {moves : List Move} (h : run store pool config s moves = some s')
    (hnot : s.cancelled = false) (hcancelled : s'.cancelled) : .cancel ∈ moves := by
  induction moves generalizing s with
  | nil =>
      cases h
      cases hnot.symm.trans hcancelled
  | cons move moves ih =>
      obtain ⟨s₁, hstep, hrest⟩ := Option.bind_eq_some_iff.1 h
      cases moves_of_step hstep with
      | cancelled => exact List.mem_cons_self
      | _ => exact List.mem_cons_of_mem _ (ih hrest hnot)

theorem remaining_start (sources : List Source) (cache : DescriptorCache σ) :
    (start sources cache).remaining =
      2 + (sources.map fun src => 2 * src.events.length + 4).sum := by
  have hsum : (sources.map fun src => 2 * src.events.length + 4).sum =
      2 * sources.length + (sources.map fun src => 2 * src.events.length + 2).sum := by
    induction sources with
    | nil => rfl
    | cons src sources ih =>
        simp only [List.map_cons, List.sum_cons, List.length_cons, ih]
        omega
  simp only [State.remaining, start, List.length_map, List.map_map, Function.comp_def,
    taskRemaining, Option.isSome_none, Bool.false_eq_true, if_false, hsum]
  omega

/-! ### Coming to an end -/

theorem workers_pos {processors : Int} (h : 0 < processors) (setting methods : Int) :
    0 < workers processors setting methods := by
  simp only [workers, poolCapacity]
  split <;> omega

theorem isSome_step_work (hup : s.isDown pool = false) {i : Nat} {src : Source} {job : Job}
    (h : s.tasks[i]? = some (src, .running job)) :
    (step store pool config s (.work i)).isSome := by
  simp only [step, hup, h, Bool.false_eq_true, if_false]
  split <;> rfl

theorem isSome_step_takeUp (hup : s.isDown pool = false) {i : Nat} {src : Source}
    (h : s.tasks[i]? = some (src, .submitted)) (hadmits : pool.admits s.past (.begun i)) :
    (step store pool config s (.takeUp i)).isSome := by
  simp only [step, hup, h, hadmits, Bool.false_eq_true, if_false, if_true, Option.isSome_some]

theorem isSome_step_look (hup : s.isDown pool = false) (hout : s.isHandedOut = false)
    (hadmitted : s.admitted = false) : (step store pool config s .look).isSome := by
  simp only [step, hup, hout, hadmitted, Bool.or_false, Bool.false_eq_true, if_false]
  split <;> rfl

theorem isSome_step_submit (hup : s.isDown pool = false) (hlt : s.next < s.tasks.length)
    (hadmitted : s.admitted) (hadmits : pool.admits s.past (.accepted s.next)) :
    (step store pool config s .submit).isSome := by
  simp only [step, hup, State.answered, List.getElem?_eq_getElem hlt, hadmitted, hadmits,
    Bool.and_self, Bool.false_eq_true, if_false, if_true, Option.isSome_some]

theorem Sound.exists_task (hs : Sound store config sources s) {i : Nat} {event : PoolEvent}
    (hevent : Concerns i event) (hmem : event ∈ s.past) :
    ∃ src task, s.tasks[i]? = some (src, task) := by
  obtain ⟨j, hlt, hj⟩ := hs.known event hmem
  obtain rfl : i = j := by
    rcases hevent with rfl | rfl | rfl <;> simpa [Concerns] using hj
  exact ⟨_, _, List.getElem?_eq_getElem hlt⟩

theorem Sound.progress_of_begun (hs : Sound store config sources s) (hup : s.isDown pool = false)
    {i : Nat} (hbegun : .begun i ∈ s.past) (hended : .ended i ∉ s.past) :
    ∃ move, move ≠ .cancel ∧ (step store pool config s move).isSome := by
  obtain ⟨src, task, htask⟩ := hs.exists_task (.inr (.inl rfl)) hbegun
  have hrecorded := hs.recorded i _ htask
  obtain ⟨hwaiting, hsubmitted⟩ := hrecorded.begun.1 hbegun
  have hdone := hrecorded.ended.not.1 hended
  cases task with
  | running job => exact ⟨.work i, by simp, isSome_step_work hup htask⟩
  | waiting => exact absurd rfl hwaiting
  | submitted => exact absurd rfl hsubmitted
  | finished | crashed => exact absurd rfl hdone

/-- While a task that was accepted has not ended, that task or another one can go on. -/
theorem Sound.progress_of_accepted (hs : Sound store config sources s) (hpool : pool.RunsOnce)
    (hup : s.isDown pool = false) {i : Nat} (haccepted : .accepted i ∈ s.past)
    (hended : .ended i ∉ s.past) :
    ∃ move, move ≠ .cancel ∧ (step store pool config s move).isSome := by
  by_cases hbusy : ∀ j, .begun j ∈ s.past → .ended j ∈ s.past
  · have hwaits : .begun i ∉ s.past := fun h => hended (hbusy i h)
    obtain ⟨j, hadmits⟩ := hpool.begins s.past i haccepted hwaits hbusy
    obtain ⟨hj, hnot⟩ := hpool.once s.past j hadmits
    obtain ⟨src, task, htask⟩ := hs.exists_task (.inl rfl) hj
    have hrecorded := hs.recorded j _ htask
    obtain rfl : task = .submitted := by
      have hbegun := hrecorded.begun.not.1 hnot
      have hwaiting := hrecorded.accepted.1 hj
      exact Classical.not_not.1 fun h => hbegun ⟨hwaiting, h⟩
    exact ⟨.takeUp j, by simp, isSome_step_takeUp hup htask hadmits⟩
  · simp only [not_forall] at hbusy
    obtain ⟨j, hbegun, hj⟩ := hbusy
    exact hs.progress_of_begun hup hbegun hj

theorem Sound.started_eq (hs : Sound store config sources s) (hout : s.isHandedOut) :
    s.started = s.next := by
  unfold State.started
  cases hstopped : s.stopped with
  | some k => exact (hs.stopped k hstopped).1
  | none =>
      have hle : s.tasks.length ≤ s.next := by simpa [State.isHandedOut, hstopped] using hout
      exact Nat.le_antisymm hle hs.next_le

/-- A batch that has not returned can go on, whether or not it is cancelled, unless a crash has
ended everything. -/
theorem Sound.progress (hs : Sound store config sources s) (hpool : pool.RunsOnce)
    (hup : s.isDown pool = false) (h : s.returned? pool = none) :
    ∃ move, move ≠ .cancel ∧ (step store pool config s move).isSome := by
  cases hout : s.isHandedOut with
  | true =>
      cases hall : (s.tasks.take s.next).all (·.2.isDone) with
      | true =>
          simp only [State.returned?, hup, hout, hs.started_eq hout, hall, Bool.not_false,
            Bool.and_self, if_true] at h
          split at h <;> cases h
      | false =>
          obtain ⟨⟨src, task⟩, hmem, hunfinished⟩ := List.all_eq_false.1 hall
          obtain ⟨i, hi⟩ := List.getElem?_of_mem hmem
          obtain ⟨hlt, htask⟩ : i < s.next ∧ s.tasks[i]? = some (src, task) := by
            simpa [List.getElem?_take] using hi
          have hrecorded := hs.recorded i _ htask
          have haccepted : .accepted i ∈ s.past := by
            have hwaiting := (hs.handed i _ htask).not.2 (Nat.not_le.2 hlt)
            exact hrecorded.accepted.2 hwaiting
          exact hs.progress_of_accepted hpool hup haccepted (hrecorded.ended.not.2 hunfinished)
  | false =>
      obtain ⟨-, hlt⟩ := State.isHandedOut_eq_false_iff.1 hout
      cases hadmitted : s.admitted with
      | false => exact ⟨.look, by simp, isSome_step_look hup hout hadmitted⟩
      | true =>
          by_cases hidle : ∀ j, .accepted j ∈ s.past → .ended j ∈ s.past
          · have hadmits := hpool.admits_accepted s.past s.next hs.closed_not_mem hidle
            exact ⟨.submit, by simp, isSome_step_submit hup hlt hadmitted hadmits⟩
          · simp only [not_forall] at hidle
            obtain ⟨j, haccepted, hj⟩ := hidle
            exact hs.progress_of_accepted hpool hup haccepted hj

theorem Sound.crash_of_isDown (hs : Sound store config sources s) (hdown : s.isDown pool) :
    pool.recovers = false ∧ ∃ src ∈ sources, ∃ crash, analyze config src = .error crash := by
  simp only [State.isDown, Bool.and_eq_true, Bool.not_eq_true', List.any_eq_true] at hdown
  obtain ⟨hrecovers, ⟨src, task⟩, hmem, hcrashed⟩ := hdown
  refine ⟨hrecovers, src, ?_, ?_⟩
  · rw [← hs.sources]
    exact List.mem_map.2 ⟨_, hmem, rfl⟩
  · cases task with
    | crashed c => exact ⟨c, hs.task _ hmem⟩
    | _ => cases hcrashed

/-! ### What a batch returns -/

theorem Sound.result_eq (hs : Sound store config sources s) {t : Source × Task} (ht : t ∈ s.tasks)
    (hdone : t.2.isDone) : t.2.result = .ofAnalysis (analyze config t.1) := by
  obtain ⟨src, task⟩ := t
  have hsound := hs.task _ ht
  cases task with
  | finished f =>
      obtain ⟨a, ha, rfl⟩ := hsound
      rw [ha]
      rfl
  | crashed c =>
      have hcrash : analyze config src = .error c := hsound
      rw [hcrash]
      rfl
  | _ => cases hdone

theorem Sound.getD_stopped (hs : Sound store config sources s) :
    (if s.cancelled then some (s.stopped.getD sources.length) else none).getD sources.length =
      s.stopped.getD sources.length := by
  split
  · rfl
  · next hcancelled =>
    cases hstopped : s.stopped with
    | none => rfl
    | some k => exact absurd (hs.stopped k hstopped).2.1 hcancelled

/-- A batch returns what its methods come to one after the other. -/
theorem Sound.returned_eq (hs : Sound store config sources s) {batch : Batch}
    (h : s.returned? pool = some batch) :
    batch = Batch.run config
      (if s.cancelled then some (s.stopped.getD sources.length) else none) sources := by
  have hlength : s.tasks.length = sources.length := by rw [← hs.sources, List.length_map]
  unfold State.returned? at h
  split at h
  · next hempty =>
    cases h
    have hnil : sources = [] := by rw [← hs.sources, List.isEmpty_iff.1 hempty, List.map_nil]
    rw [hnil]
    rfl
  · next hne =>
    have hsources : ¬ sources.isEmpty := by
      rwa [← hs.sources, List.isEmpty_map]
    split at h
    · next hdone =>
      obtain ⟨-, hall⟩ := Bool.and_eq_true_iff.1 hdone
      cases h
      have hstarted : (s.tasks.take s.started).map (·.2.result) =
          (sources.take s.started).map fun src => .ofAnalysis (analyze config src) := by
        rw [← hs.sources, ← List.map_take, List.map_map]
        exact List.map_congr_left fun t ht =>
          hs.result_eq (List.mem_of_mem_take ht) (List.all_eq_true.1 hall t ht)
      have hothers : (s.tasks.drop s.started).map (Finding.ofCancelled ·.1) =
          (sources.drop s.started).map Finding.ofCancelled := by
        rw [← hs.sources, ← List.map_drop, List.map_map]
        rfl
      rw [hstarted, hothers, Batch.run, if_neg hsources, hs.getD_stopped, State.started, hlength]
      congr 1
      split <;> rfl
    · cases h

end Schedule

namespace Batch

variable (config : Config) (cancelledAt : Option Nat) (sources : List Source)

theorem findings_run :
    (run config cancelledAt sources).findings =
      (sources.take (cancelledAt.getD sources.length)).map
          (fun src => .ofAnalysis (analyze config src)) ++
        (sources.drop (cancelledAt.getD sources.length)).map .ofCancelled := by
  unfold run
  split
  · next hempty => simp [List.isEmpty_iff.1 hempty]
  · rfl

theorem length_findings_run :
    (run config cancelledAt sources).findings.length = sources.length := by
  rw [findings_run]
  simp
  omega

variable {sources} in
theorem getElem?_findings_run {i : Nat} {src : Source} (h : sources[i]? = some src) :
    (run config cancelledAt sources).findings[i]? =
      some (if i < cancelledAt.getD sources.length then .ofAnalysis (analyze config src)
        else .ofCancelled src) := by
  have hlt : i < sources.length := (List.getElem?_eq_some_iff.1 h).1
  rw [findings_run]
  split
  · next hi =>
    rw [List.getElem?_append_left (by simp; omega), List.getElem?_map,
      List.getElem?_take_of_lt hi, h]
    rfl
  · next hi =>
    have hle : cancelledAt.getD sources.length ≤ i := Nat.not_lt.1 hi
    rw [List.getElem?_append_right (by simp; omega), List.getElem?_map, List.getElem?_drop]
    simp only [List.length_map, List.length_take]
    rw [Nat.min_eq_left (by omega), Nat.add_sub_cancel' hle, h]
    rfl

end Batch

namespace Schedule

/-- Whatever keeps the parsed descriptors, if it gives only what was added, whatever earlier batches
left there, and whichever pool runs the tasks, if it runs each of them once: every schedule comes to
an end, unless a crash ends the pool with everything else, and the batch then returns for each
method, in order, what the analysis of that method on its own returns. If it was found cancelled
before a method, that method and those after it are reported as cancelled. -/
theorem batch_independent_of_schedule {σ : Type} {store : DescriptorCache.Store σ}
    (hstore : store.GivesAdded) {pools : Int → Except Text Pool}
    (hpools : ∀ size, 0 < size → ∃ pool, pools size = .ok pool ∧ pool.RunsOnce) (config : Config)
    (sources : List Source) {processors : Int} (hprocessors : 0 < processors) (setting : Int)
    {cache : DescriptorCache σ} (hcache : cache.Coherent store) :
    ∃ pool, poolFor pools processors setting sources.length = .ok pool ∧
      ∀ moves s, run store pool config (start sources cache) moves = some s →
        moves.length ≤ 2 + (sources.map fun src => 2 * src.events.length + 4).sum ∧
        (s.returned? pool = none →
          (∃ move, move ≠ .cancel ∧ (step store pool config s move).isSome) ∨
          pool.recovers = false ∧ ∃ src ∈ sources, ∃ crash,
            (analyzeCached store config src (.empty store)).1 = .error crash) ∧
        (.cancel ∉ moves → s.cancelled = false ∧ s.stopped = none) ∧
        ∀ batch, s.returned? pool = some batch →
          batch = Batch.run config
            (if s.cancelled then some (s.stopped.getD sources.length) else none) sources ∧
          batch.findings.length = sources.length ∧
          ∀ i src, sources[i]? = some src →
            batch.findings[i]? =
              some (if i < s.stopped.getD sources.length then
                .ofAnalysis (analyzeCached store config src (.empty store)).1
              else
                { method := src.name, instructions := 0, maxDepth := 0, finalDepth := 0,
                  returned := none, failure := some .cancelled }) := by
  have halone (src : Source) : (analyzeCached store config src (.empty store)).1 =
      analyze config src :=
    analyzeCached_eq hstore (DescriptorCache.coherent_empty store) config src
  obtain ⟨pool, hpool, honce⟩ :=
    hpools _ (workers_pos hprocessors setting (sources.length : Int))
  refine ⟨pool, by rw [poolFor, hpool]; rfl, fun moves s hrun => ?_⟩
  obtain ⟨hs, hlength⟩ := sound_of_run hstore honce hrun (sound_start hcache config sources)
  rw [remaining_start] at hlength
  refine ⟨by omega, fun hreturned => ?_, fun hnot => ?_, fun batch hbatch => ?_⟩
  · cases hdown : s.isDown pool with
    | false => exact .inl (hs.progress honce hdown hreturned)
    | true =>
        obtain ⟨hrecovers, src, hsrc, crash, hcrash⟩ := hs.crash_of_isDown hdown
        exact .inr ⟨hrecovers, src, hsrc, crash, (halone src).trans hcrash⟩
  · have hcancelled : s.cancelled = false := by
      cases hc : s.cancelled with
      | false => rfl
      | true => exact absurd (mem_of_run_cancelled hrun rfl hc) hnot
    refine ⟨hcancelled, Option.eq_none_iff_forall_ne_some.2 fun k hk => ?_⟩
    cases hcancelled.symm.trans (hs.stopped k hk).2.1
  · have heq := hs.returned_eq hbatch
    refine ⟨heq, ?_, ?_⟩
    · rw [heq, Batch.length_findings_run]
    · intro i src hsrc
      rw [heq, Batch.getElem?_findings_run _ _ hsrc, hs.getD_stopped, halone]
      rfl

def calling (name descriptor : Text) (op : Opcode) : Source :=
  { name := name ++ descriptor
    events :=
      [some (.method { name, descriptor }), some .code,
        some (.instruction (some (.method .invokestatic "A" "g" "()I" false))),
        some (.instruction (some (.plain op))), some .finish]
    stop := false }

def overlapping : List Source :=
  [calling "f" "()V" ⟨177⟩, calling "g" "()I" ⟨172⟩, calling "h" "()V" ⟨177⟩]

/-- Both tasks miss the same descriptor, parse it and enter it. The batch is cancelled while they
run, and finds out before the third method. -/
def interleaved : List Move :=
  [.look, .submit, .takeUp 0, .look, .submit, .work 0, .takeUp 1, .work 1, .work 0, .work 0,
    .work 1, .cancel, .work 0, .work 1, .look, .work 1, .work 1, .work 1, .work 1, .work 0,
    .work 0, .work 0]

open DescriptorCache (recent) in
theorem batch_independent_of_schedule_overlapping :
    ∃ s batch,
      run recent (Pool.bounded 2) {}
          (start overlapping (DescriptorCache.after recent [.lookup "()V"])) interleaved =
        some s ∧
      s.stopped = some 2 ∧ s.returned? (Pool.bounded 2) = some batch ∧
      batch = Batch.run {} (some 2) overlapping ∧
      ∀ i src, overlapping[i]? = some src →
        batch.findings[i]? =
          some (if i < 2 then .ofAnalysis (analyzeCached recent {} src (.empty recent)).1
            else .ofCancelled src) := by
  have hstate : (run recent (Pool.bounded 2) {}
      (start overlapping (DescriptorCache.after recent [.lookup "()V"])) interleaved).any
        fun s => s.cancelled && s.stopped = some 2 && (s.returned? (Pool.bounded 2)).isSome := by
    decide +kernel
  obtain ⟨s, hrun, hs⟩ := (Option.any_eq_true _ _).1 hstate
  simp only [Bool.and_eq_true, decide_eq_true_eq] at hs
  obtain ⟨⟨hcancelled, hstopped⟩, hreturned⟩ := hs
  obtain ⟨batch, hbatch⟩ := Option.isSome_iff_exists.1 hreturned
  have hstore : recent.GivesAdded := (Cache.recent_isLru _).givesAdded
  have hpools (size : Int) (hsize : 0 < size) :
      ∃ pool, Except.ok (Pool.bounded size) = (.ok pool : Except Text Pool) ∧ pool.RunsOnce :=
    ⟨_, rfl, Pool.bounded_runsOnce hsize⟩
  obtain ⟨pool, hpool, hruns⟩ :=
    batch_independent_of_schedule hstore
      hpools {} overlapping
      (by decide : (0 : Int) < 8) 2 (DescriptorCache.coherent_after hstore [.lookup "()V"])
  cases hpool
  obtain ⟨-, -, -, hall⟩ := hruns interleaved s hrun
  obtain ⟨heq, -, hfindings⟩ := hall batch hbatch
  rw [hcancelled, hstopped] at heq
  rw [hstopped] at hfindings
  exact ⟨s, batch, hrun, hstopped, hbatch, heq, hfindings⟩

end Schedule

end OperandStack
