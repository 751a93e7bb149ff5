import Mathlib.Data.List.Basic
import OperandStack.Proofs.Body

/-!
# Shuffles of the stack

Nine instructions rearrange the top of the stack. The machine that they were made for knows words
only: a long or a double is two of them, and a shuffle moves words whatever they belong to
(`Shuffle.onWords`). Engines keep values whole. They take as many entries as it needs to reach the
words that a shuffle asks for (`Operands.Reaches`), or even a fixed number of entries.

Where no long and no double lies across a place at which a shuffle cuts the stack, this makes no
difference: spelt out in words, the stack of an engine is what the machine would have
(`shuffles_agree_with_words`).
-/

namespace OperandStack

/-! ## Words -/

/-- A word of a stack: a value that takes one word, or one half of a value that takes two. -/
inductive StackWord where
  | whole (v : Value)
  | upper (v : Value)
  | lower (v : Value)
deriving DecidableEq, Repr

def Value.expand (v : Value) : List StackWord :=
  if v.category = 2 then [.upper v, .lower v] else [.whole v]

theorem Value.length_expand (v : Value) : v.expand.length = v.category := by
  unfold expand category
  split <;> rfl

namespace Operands

def expand (s : Operands) : List StackWord := s.flatMap Value.expand

theorem expand_append (s t : Operands) : expand (s ++ t) = expand s ++ expand t :=
  List.flatMap_append

@[simp] theorem words_nil : words [] = 0 := rfl

@[simp] theorem words_cons (v : Value) (s : Operands) : words (v :: s) = v.category + words s := rfl

theorem length_expand (s : Operands) : (expand s).length = words s := by
  induction s with
  | nil => rfl
  | cons v s ih =>
      have hcons : expand (v :: s) = v.expand ++ expand s := List.flatMap_cons
      rw [hcons, List.length_append, v.length_expand, ih, words_cons]

/-- The top `n` entries reach `t` words, and no fewer entries do. -/
structure Reaches (s : Operands) (t n : Nat) : Prop where
  le : n ≤ s.length
  reach : t ≤ words (s.take n)
  least : ∀ k < n, words (s.take k) < t

theorem reaches_zero_iff {s : Operands} {n : Nat} : s.Reaches 0 n ↔ n = 0 := by
  constructor
  · intro h
    rcases Nat.eq_zero_or_pos n with hzero | hpos
    · exact hzero
    · have hleast := h.least 0 hpos
      omega
  · rintro rfl
    exact ⟨Nat.zero_le _, Nat.zero_le _, nofun⟩

theorem not_reaches_nil {t n : Nat} : ¬ Reaches [] (t + 1) n := by
  intro h
  have hreach := h.reach
  rw [List.take_nil, words_nil] at hreach
  omega

theorem reaches_cons_iff {v : Value} {s : Operands} {t n : Nat} :
    Reaches (v :: s) (t + 1) n ↔ ∃ k, n = k + 1 ∧ s.Reaches (t + 1 - v.category) k := by
  constructor
  · intro h
    cases n with
    | zero =>
        have hreach := h.reach
        rw [List.take_zero, words_nil] at hreach
        omega
    | succ k =>
        refine ⟨k, rfl, Nat.le_of_succ_le_succ h.le, ?_, ?_⟩
        · have hreach := h.reach
          rw [List.take_succ_cons, words_cons] at hreach
          omega
        · intro j hj
          have hleast := h.least (j + 1) (Nat.succ_lt_succ hj)
          rw [List.take_succ_cons, words_cons] at hleast
          omega
  · rintro ⟨k, rfl, h⟩
    refine ⟨Nat.succ_le_succ h.le, ?_, ?_⟩
    · have hreach := h.reach
      rw [List.take_succ_cons, words_cons]
      omega
    · intro j hj
      cases j with
      | zero =>
          rw [List.take_zero, words_nil]
          omega
      | succ j =>
          have hleast := h.least j (Nat.lt_of_succ_lt_succ hj)
          rw [List.take_succ_cons, words_cons]
          omega

theorem go_eq_some_iff {s : Operands} {t n : Nat} :
    countWords?.go t s = some n ↔ s.Reaches t n := by
  induction s generalizing t n with
  | nil =>
      cases t with
      | zero => simp [countWords?.go, reaches_zero_iff, eq_comm]
      | succ t => simp [countWords?.go, not_reaches_nil]
  | cons v s ih =>
      cases t with
      | zero => simp [countWords?.go, reaches_zero_iff, eq_comm]
      | succ t =>
          simp only [countWords?.go, Option.map_eq_some_iff, ih, reaches_cons_iff]
          constructor
          · rintro ⟨k, hk, rfl⟩
            exact ⟨k, rfl, hk⟩
          · rintro ⟨k, rfl, hk⟩
            exact ⟨k, hk, rfl⟩

/-- The loop that counts entries finds the least number of them. -/
theorem countWords?_eq_some_iff {s : Operands} {skip t n : Nat} :
    s.countWords? skip t = some n ↔ Reaches (s.drop skip) t n :=
  go_eq_some_iff

/-- Entries that make up the words exactly are the least that reach them. -/
theorem reaches_of_words (top rest : Operands) : Reaches (top ++ rest) (words top) top.length := by
  induction top with
  | nil => exact reaches_zero_iff.2 rfl
  | cons v top ih =>
      have hpos := v.category_pos
      have hwords : words (v :: top) = (v.category - 1 + words top) + 1 := by
        rw [words_cons]
        omega
      have hrest : v.category - 1 + words top + 1 - v.category = words top := by omega
      rw [hwords, List.cons_append, List.length_cons, reaches_cons_iff, hrest]
      exact ⟨top.length, rfl, ih⟩

theorem eq_nil_of_words {s : Operands} (h : words s = 0) : s = [] := by
  cases s with
  | nil => rfl
  | cons v s =>
      have hpos := v.category_pos
      rw [words_cons] at h
      omega

theorem eq_singleton_of_words {s : Operands} (h : words s = 1) : ∃ v, s = [v] := by
  cases s with
  | nil => cases h
  | cons v s =>
      have hpos := v.category_pos
      rw [words_cons] at h
      have hrest : words s = 0 := by omega
      exact ⟨v, by rw [eq_nil_of_words hrest]⟩

end Operands

/-! ## Shuffles -/

inductive Shuffle where
  | pop
  | pop2
  | dup
  | dupX1
  | dupX2
  | dup2
  | dup2X1
  | dup2X2
  | swap
deriving DecidableEq, Repr

namespace Shuffle

def opcode : Shuffle → Opcode
  | .pop => ⟨0x57⟩
  | .pop2 => ⟨0x58⟩
  | .dup => ⟨0x59⟩
  | .dupX1 => ⟨0x5A⟩
  | .dupX2 => ⟨0x5B⟩
  | .dup2 => ⟨0x5C⟩
  | .dup2X1 => ⟨0x5D⟩
  | .dup2X2 => ⟨0x5E⟩
  | .swap => ⟨0x5F⟩

def event (sh : Shuffle) : Event := .instruction (some (.plain sh.opcode))

/-- The words on top that the shuffle takes for one. -/
def top : Shuffle → Nat
  | .pop2 => 2
  | .dup2 => 2
  | .dup2X1 => 2
  | .dup2X2 => 2
  | _ => 1

/-- The words under these that it takes for one. -/
def under : Shuffle → Nat
  | .dupX1 => 1
  | .dupX2 => 2
  | .dup2X1 => 1
  | .dup2X2 => 2
  | .swap => 1
  | _ => 0

/-- What the machine does to its words, top first, whatever they belong to. -/
def onWords {α : Type} : Shuffle → List α → Option (List α)
  | .pop, _ :: r => some r
  | .pop2, _ :: _ :: r => some r
  | .dup, a :: r => some (a :: a :: r)
  | .dupX1, a :: b :: r => some (a :: b :: a :: r)
  | .dupX2, a :: b :: c :: r => some (a :: b :: c :: a :: r)
  | .dup2, a :: b :: r => some (a :: b :: a :: b :: r)
  | .dup2X1, a :: b :: c :: r => some (a :: b :: c :: a :: b :: r)
  | .dup2X2, a :: b :: c :: d :: r => some (a :: b :: c :: d :: a :: b :: r)
  | .swap, a :: b :: r => some (b :: a :: r)
  | _, _ => none

/-- What becomes of a stack that is cut into the two parts and the rest. -/
def arrange {α : Type} (sh : Shuffle) (t u r : List α) : List α :=
  match sh with
  | .pop => r
  | .pop2 => r
  | .swap => u ++ t ++ r
  | _ => t ++ u ++ t ++ r

theorem onWords_append {α : Type} (sh : Shuffle) {t u : List α} (ht : t.length = sh.top)
    (hu : u.length = sh.under) (r : List α) :
    sh.onWords (t ++ u ++ r) = some (sh.arrange t u r) := by
  cases sh with
  | pop | dup =>
      obtain ⟨a, rfl⟩ := List.length_eq_one_iff.1 ht
      obtain rfl := List.length_eq_zero_iff.1 hu
      rfl
  | pop2 | dup2 =>
      obtain ⟨a, b, rfl⟩ := List.length_eq_two.1 ht
      obtain rfl := List.length_eq_zero_iff.1 hu
      rfl
  | dupX1 | swap =>
      obtain ⟨a, rfl⟩ := List.length_eq_one_iff.1 ht
      obtain ⟨b, rfl⟩ := List.length_eq_one_iff.1 hu
      rfl
  | dupX2 =>
      obtain ⟨a, rfl⟩ := List.length_eq_one_iff.1 ht
      obtain ⟨b, c, rfl⟩ := List.length_eq_two.1 hu
      rfl
  | dup2X1 =>
      obtain ⟨a, b, rfl⟩ := List.length_eq_two.1 ht
      obtain ⟨c, rfl⟩ := List.length_eq_one_iff.1 hu
      rfl
  | dup2X2 =>
      obtain ⟨a, b, rfl⟩ := List.length_eq_two.1 ht
      obtain ⟨c, d, rfl⟩ := List.length_eq_two.1 hu
      rfl

theorem expand_arrange (sh : Shuffle) (t u r : Operands) :
    Operands.expand (sh.arrange t u r) = sh.arrange t.expand u.expand r.expand := by
  cases sh <;> simp only [arrange, Operands.expand_append]

def action : Shuffle → Action
  | .pop => .drop
  | .pop2 => .dropWords
  | .dup => .dup
  | .dupX1 => .dupBelow
  | .dupX2 => .dupWords 1 2
  | .dup2 => .dupWords 2 0
  | .dup2X1 => .dupWords 2 1
  | .dup2X2 => .dupWords 2 2
  | .swap => .swap

theorem performs (sh : Shuffle) : (Instruction.plain sh.opcode).Performs sh.action := by
  cases sh <;> exact ⟨_, rfl, rfl, rfl⟩

end Shuffle

/-! ## Shuffles by engines -/

namespace Engine

theorem eq_of_performs {ins : Instruction} {action action' : Action} (h : ins.Performs action)
    (h' : ins.Performs action') : action' = action := by
  obtain ⟨o, hop, -, rfl⟩ := h
  obtain ⟨o', hop', -, rfl⟩ := h'
  rw [Option.some.inj (hop'.symm.trans hop)]

variable {e : Engine} {s : Operands} {sh : Shuffle}

theorem Ready.visit_shuffle {taken : Nat} {push : Operands} (h : e.Ready s) (sh : Shuffle)
    (happly : sh.action.Applies e s (.plain sh.opcode) { taken, update := { push } }) :
    (e.visit sh.event).2.result = none ∧
      (e.visit sh.event).1.stack = some (push ++ s.drop taken) := by
  obtain ⟨hresult, hengine⟩ := (Advance.instruction sh.performs happly).visit h
  refine ⟨hresult, ?_⟩
  rw [Shuffle.event, hengine, advanced_stack, Operands.settle_none]

/-- Some shuffles go by entries, whatever words these take. -/
theorem Ready.visit_entries {args r push : Operands} {pushes : Nat} (h : e.Ready (args ++ r))
    (sh : Shuffle) (hfixed : sh.action.isDynamic = false)
    (hcounts : sh.opcode.counts? = some (args.length, pushes))
    (hrun : sh.action.run e (.plain sh.opcode) args = .ok { push }) :
    (e.visit sh.event).2.result = none ∧ (e.visit sh.event).1.stack = some (push ++ r) := by
  have hargs : (args ++ r).take args.length = args := List.take_left
  have happly : sh.action.Applies e (args ++ r) (.plain sh.opcode)
      { taken := args.length, update := { push } } :=
    .fixed hfixed hcounts (by simp) (by rw [hargs, hrun])
  obtain ⟨hresult, hstack⟩ := h.visit_shuffle sh happly
  exact ⟨hresult, by rw [hstack, List.drop_left]⟩

theorem Ready.applies_of_shuffle (h : e.Ready s) (haccepted : (e.visit sh.event).2.result = none) :
    ∃ c, sh.action.Applies e s (.plain sh.opcode) c := by
  have hadvance := h.advance rfl haccepted
  generalize (e.visit sh.event).1 = e' at hadvance
  cases hadvance with
  | instruction hperforms happly =>
      obtain rfl := eq_of_performs sh.performs hperforms
      exact ⟨_, happly⟩

theorem Ready.visit_dup_iff (h : e.Ready s) (hsh : sh.action = .dupWords sh.top sh.under) :
    (e.visit sh.event).2.result = none ↔
      ∃ n m, s.Reaches sh.top n ∧ Operands.Reaches (s.drop n) sh.under m := by
  constructor
  · intro haccepted
    obtain ⟨c, happly⟩ := h.applies_of_shuffle haccepted
    rw [hsh] at happly
    cases happly with
    | fixed hfixed => cases hfixed
    | dupWords hn hm =>
        exact ⟨_, _, Operands.countWords?_eq_some_iff.1 hn, Operands.countWords?_eq_some_iff.1 hm⟩
  · rintro ⟨n, m, hn, hm⟩
    have happly : sh.action.Applies e s (.plain sh.opcode)
        { taken := n + m, update := { push := s.take n ++ ((s.drop n).take m ++ s.take n) } } := by
      rw [hsh]
      exact .dupWords (Operands.countWords?_eq_some_iff.2 hn)
        (Operands.countWords?_eq_some_iff.2 hm)
    exact (h.visit_shuffle sh happly).1

/-- The entries that reach the words on top are pushed again under those that reach the words under
them. -/
theorem Ready.visit_dup {t u r : Operands} (h : e.Ready (t ++ u ++ r))
    (hsh : sh.action = .dupWords sh.top sh.under)
    (ht : Operands.Reaches (t ++ u ++ r) sh.top t.length)
    (hu : Operands.Reaches (u ++ r) sh.under u.length) :
    (e.visit sh.event).2.result = none ∧ (e.visit sh.event).1.stack = some (t ++ u ++ t ++ r) := by
  have hdrop : (t ++ u ++ r).drop t.length = u ++ r := by
    rw [List.append_assoc, List.drop_left]
  have htake : (t ++ u ++ r).take t.length = t := by
    rw [List.append_assoc, List.take_left]
  have happly : Action.Applies e (t ++ u ++ r) (.dupWords sh.top sh.under) (.plain sh.opcode) _ :=
    .dupWords (Operands.countWords?_eq_some_iff.2 ht)
      (Operands.countWords?_eq_some_iff.2 (hdrop.symm ▸ hu))
  rw [← hsh] at happly
  obtain ⟨hresult, hstack⟩ := h.visit_shuffle sh happly
  refine ⟨hresult, hstack.trans ?_⟩
  rw [htake, ← List.drop_drop, hdrop, List.take_left, List.drop_left]
  simp only [List.append_assoc]

theorem Ready.visit_pop2_iff (h : e.Ready s) :
    (e.visit Shuffle.pop2.event).2.result = none ↔ ∃ n, s.Reaches 2 n := by
  constructor
  · intro haccepted
    obtain ⟨c, happly⟩ := h.applies_of_shuffle haccepted
    cases happly with
    | fixed hfixed => cases hfixed
    | dropWords hn => exact ⟨_, Operands.countWords?_eq_some_iff.1 hn⟩
  · rintro ⟨n, hn⟩
    exact (h.visit_shuffle .pop2 (.dropWords (Operands.countWords?_eq_some_iff.2 hn))).1

theorem Ready.visit_pop2 {t r : Operands} (h : e.Ready (t ++ r))
    (ht : Operands.Reaches (t ++ r) 2 t.length) :
    (e.visit Shuffle.pop2.event).2.result = none ∧
      (e.visit Shuffle.pop2.event).1.stack = some r := by
  obtain ⟨hresult, hstack⟩ :=
    h.visit_shuffle .pop2 (.dropWords (Operands.countWords?_eq_some_iff.2 ht))
  exact ⟨hresult, by rw [hstack, List.drop_left, List.nil_append]⟩

/-- Where the parts make up their words exactly, the engine rearranges them. -/
theorem Ready.visit_arrange {t u r : Operands} (h : e.Ready (t ++ u ++ r))
    (ht : t.words = sh.top) (hu : u.words = sh.under) :
    (e.visit sh.event).2.result = none ∧
      (e.visit sh.event).1.stack = some (sh.arrange t u r) := by
  have htop : Operands.Reaches (t ++ u ++ r) sh.top t.length := by
    rw [← ht, List.append_assoc]
    exact Operands.reaches_of_words t (u ++ r)
  have hunder : Operands.Reaches (u ++ r) sh.under u.length := by
    rw [← hu]
    exact Operands.reaches_of_words u r
  cases sh with
  | pop =>
      obtain ⟨v, rfl⟩ := Operands.eq_singleton_of_words ht
      obtain rfl := Operands.eq_nil_of_words hu
      exact h.visit_entries .pop rfl rfl rfl
  | pop2 =>
      obtain rfl := Operands.eq_nil_of_words hu
      rw [List.append_nil] at h htop
      exact h.visit_pop2 htop
  | dup =>
      obtain ⟨v, rfl⟩ := Operands.eq_singleton_of_words ht
      obtain rfl := Operands.eq_nil_of_words hu
      exact h.visit_entries .dup rfl rfl rfl
  | dupX1 =>
      obtain ⟨v, rfl⟩ := Operands.eq_singleton_of_words ht
      obtain ⟨w, rfl⟩ := Operands.eq_singleton_of_words hu
      exact h.visit_entries .dupX1 rfl rfl rfl
  | swap =>
      obtain ⟨v, rfl⟩ := Operands.eq_singleton_of_words ht
      obtain ⟨w, rfl⟩ := Operands.eq_singleton_of_words hu
      exact h.visit_entries .swap rfl rfl rfl
  | dupX2 => exact h.visit_dup rfl htop hunder
  | dup2 => exact h.visit_dup rfl htop hunder
  | dup2X1 => exact h.visit_dup rfl htop hunder
  | dup2X2 => exact h.visit_dup rfl htop hunder

end Engine

/-- The shuffles that count words are accepted exactly where there are entries that reach the words
on top and entries under them that reach the words under; the fewest that do are taken. And each of
the nine shuffles, where the parts that it cuts the stack into make up their words exactly, leaves
the words that the machine would leave. -/
theorem shuffles_agree_with_words (e : Engine) (s : Operands) (h : e.Ready s) :
    (∀ sh ∈ [Shuffle.dupX2, .dup2, .dup2X1, .dup2X2],
      ((e.visit sh.event).2.result = none ↔
        ∃ n m, s.Reaches sh.top n ∧ Operands.Reaches (s.drop n) sh.under m) ∧
      ∀ t u r, s = t ++ u ++ r → s.Reaches sh.top t.length →
        Operands.Reaches (u ++ r) sh.under u.length →
        (e.visit sh.event).1.stack = some (t ++ u ++ t ++ r)) ∧
    (((e.visit Shuffle.pop2.event).2.result = none ↔ ∃ n, s.Reaches 2 n) ∧
      ∀ t r, s = t ++ r → s.Reaches 2 t.length →
        (e.visit Shuffle.pop2.event).1.stack = some r) ∧
    ∀ (sh : Shuffle) (t u r : Operands), s = t ++ u ++ r → t.words = sh.top → u.words = sh.under →
      ∃ s', (e.visit sh.event).2.result = none ∧ (e.visit sh.event).1.stack = some s' ∧
        sh.onWords s.expand = some s'.expand := by
  refine ⟨fun sh hsh => ?_, ⟨h.visit_pop2_iff, ?_⟩, ?_⟩
  · have haction : sh.action = .dupWords sh.top sh.under := by
      simp only [List.mem_cons, List.not_mem_nil, or_false] at hsh
      rcases hsh with rfl | rfl | rfl | rfl <;> rfl
    refine ⟨h.visit_dup_iff haction, ?_⟩
    rintro t u r rfl ht hu
    exact (h.visit_dup haction ht hu).2
  · rintro t r rfl ht
    exact (h.visit_pop2 ht).2
  · rintro sh t u r rfl ht hu
    obtain ⟨hresult, hstack⟩ := h.visit_arrange ht hu
    refine ⟨sh.arrange t u r, hresult, hstack, ?_⟩
    rw [Operands.expand_append, Operands.expand_append, sh.expand_arrange]
    exact sh.onWords_append (t.length_expand.trans ht) (u.length_expand.trans hu) _

def longInTheMiddle : Engine :=
  Visitor.after Engine.visit (Engine.new {})
    [.method { name := "f", descriptor := "()V" }, .code, .instruction (some (.plain ⟨0x04⟩)),
      .instruction (some (.plain ⟨0x09⟩)), .instruction (some (.plain ⟨0x04⟩))]

/-- `dup_x2` has the long for the two words under. For `dup2` half of it would do, and the engine
takes all of it. -/
theorem shuffles_agree_with_words_long :
    let i := Value.const FieldType.int (.int 1)
    let l := Value.const FieldType.long (.long 0)
    longInTheMiddle.Ready [i, l, i] ∧
      (longInTheMiddle.visit Shuffle.dupX2.event).1.stack = some [i, l, i, i] ∧
      Shuffle.dupX2.onWords (Operands.expand [i, l, i]) = some (Operands.expand [i, l, i, i]) ∧
      (longInTheMiddle.visit Shuffle.dup2.event).1.stack = some [i, l, i, l, i] := by
  intro i l
  have hready : longInTheMiddle.Ready [i, l, i] :=
    ⟨by decide +kernel, by decide +kernel, by decide +kernel⟩
  obtain ⟨hdup, -, hexact⟩ := shuffles_agree_with_words _ _ hready
  obtain ⟨s', -, hstack, hwords⟩ := hexact .dupX2 [i] [l] [i] rfl (by decide +kernel)
    (by decide +kernel)
  have hpushed : (longInTheMiddle.visit Shuffle.dupX2.event).1.stack = some [i, l, i, i] := by
    decide +kernel
  obtain rfl := Option.some.inj (hpushed.symm.trans hstack)
  have htop : Operands.Reaches [i, l, i] 2 2 := ⟨by decide, by decide +kernel, by decide +kernel⟩
  have hhalf := (hdup .dup2 (by simp)).2 [i, l] [] [i] rfl htop (Operands.reaches_zero_iff.2 rfl)
  exact ⟨hready, hpushed, hwords, hhalf⟩

end OperandStack
