import Mathlib

/-!
# The longest prefix of a kind

A list has at most one longest prefix with a property. Where the property is a
test on every element, it is `takeWhile`.
-/

set_option autoImplicit false

namespace AxiomeToolchain.Library.Prefixes

variable {α : Type} {P : List α → Prop} {l p q : List α}

structure LongestPrefix (P : List α → Prop) (l p : List α) : Prop where
  isPrefix : p <+: l
  holds : P p
  longest : ∀ q, q <+: l → P q → q.length ≤ p.length

theorem LongestPrefix.unique (first : LongestPrefix P l p) (other : LongestPrefix P l q) : p = q := by
  have le := other.longest p first.isPrefix first.holds
  have ge := first.longest q other.isPrefix other.holds
  have within := List.prefix_of_prefix_length_le first.isPrefix other.isPrefix le
  exact within.eq_of_length (Nat.le_antisymm le ge)

theorem takeWhile_longest (test : α → Bool) (l : List α) :
    LongestPrefix (fun p => ∀ a ∈ p, test a = true) l (l.takeWhile test) where
  isPrefix := List.takeWhile_prefix test
  holds _ member := List.mem_takeWhile_imp member
  longest := by
    rintro q ⟨rest, rfl⟩ all
    rw [List.takeWhile_append_of_pos all, List.length_append]
    exact Nat.le_add_right _ _

/-- Behind a part that passes and before an element that fails, nothing more is taken. -/
theorem takeWhile_run {test : α → Bool} (all : ∀ a ∈ p, test a = true)
    (ended : ∀ a ∈ l.head?, test a = false) : (p ++ l).takeWhile test = p := by
  rw [List.takeWhile_append_of_pos all]
  cases l with
  | nil => simp
  | cons a l => rw [List.takeWhile_cons_of_neg (by simp [ended a rfl]), List.append_nil]

theorem dropWhile_run {test : α → Bool} (all : ∀ a ∈ p, test a = true)
    (ended : ∀ a ∈ l.head?, test a = false) : (p ++ l).dropWhile test = l := by
  rw [List.dropWhile_append_of_pos all]
  cases l with
  | nil => rfl
  | cons a l => rw [List.dropWhile_cons_of_neg (by simp [ended a rfl])]

/-- A run that stops inside a list stops there whatever follows. -/
theorem takeWhile_stopped {test : α → Bool} (stopped : l.dropWhile test ≠ []) (more : List α) :
    (l ++ more).takeWhile test = l.takeWhile test := by
  induction l with
  | nil => exact absurd rfl stopped
  | cons a l ih =>
    rw [List.cons_append, List.takeWhile_cons, List.takeWhile_cons]
    cases passes : test a with
    | false => rfl
    | true =>
      rw [List.dropWhile_cons_of_pos passes] at stopped
      simp only [if_true, ih stopped]

theorem dropWhile_stopped {test : α → Bool} (stopped : l.dropWhile test ≠ []) (more : List α) :
    (l ++ more).dropWhile test = l.dropWhile test ++ more := by
  induction l with
  | nil => exact absurd rfl stopped
  | cons a l ih =>
    rw [List.cons_append, List.dropWhile_cons, List.dropWhile_cons]
    cases passes : test a with
    | false => rfl
    | true =>
      rw [List.dropWhile_cons_of_pos passes] at stopped
      simp only [if_true, ih stopped]

/-- An element that fails ends every run in front of it. -/
theorem dropWhile_failing {test : α → Bool} {a : α} (fails : test a = false) (l : List α) :
    (l ++ [a]).dropWhile test = l.dropWhile test ++ [a] := by
  induction l with
  | nil => simp [fails]
  | cons b l ih =>
    rw [List.cons_append, List.dropWhile_cons, List.dropWhile_cons]
    cases passes : test b with
    | false => rfl
    | true => simp only [if_true, ih]

end AxiomeToolchain.Library.Prefixes
