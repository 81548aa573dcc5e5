import Mathlib

/-!
# Lines of bounded length

A list is cut behind every `stop` and, where none comes in time, after `limit`
elements. The lines are not empty, hold `stop` at their end only, and every line
but the last ends where it had to.
-/

set_option autoImplicit false

namespace AxiomeToolchain.Library.Lines

variable {α : Type} [DecidableEq α]

/-- The elements up to the first `stop`, that included, and `limit` at most. -/
def firstLine (stop : α) : Nat → List α → List α
  | 0, _ => []
  | _ + 1, [] => []
  | limit + 1, x :: rest => if x = stop then [x] else x :: firstLine stop limit rest

/-- Line after line until nothing is left. -/
inductive Cut (stop : α) (limit : Nat) : List α → List (List α) → Prop
  | done : Cut stop limit [] []
  | next {l : List α} {lines : List (List α)} (more : l ≠ [])
      (rest : Cut stop limit (l.drop (firstLine stop limit l).length) lines) :
      Cut stop limit l (firstLine stop limit l :: lines)

structure Line (stop : α) (limit : Nat) (line : List α) : Prop where
  nonempty : line ≠ []
  short : line.length ≤ limit
  once : stop ∉ line.dropLast

/-- The line ends with `stop` or has no room left. -/
def Full (stop : α) (limit : Nat) (line : List α) : Prop :=
  line.getLast? = some stop ∨ line.length = limit

variable {stop : α} {limit : Nat} {l : List α} {lines : List (List α)}

theorem firstLine_prefix (stop : α) (limit : Nat) (l : List α) : firstLine stop limit l <+: l := by
  induction limit generalizing l with
  | zero => exact List.nil_prefix
  | succ limit ih =>
    cases l with
    | nil => exact List.nil_prefix
    | cons x rest =>
      rw [firstLine]
      split
      · exact List.prefix_append [x] rest
      · exact List.cons_prefix_cons.mpr ⟨rfl, ih rest⟩

theorem firstLine_append (stop : α) (limit : Nat) (l : List α) :
    firstLine stop limit l ++ l.drop (firstLine stop limit l).length = l := by
  obtain ⟨rest, whole⟩ := firstLine_prefix stop limit l
  have dropped := congrArg (List.drop (firstLine stop limit l).length) whole
  rw [List.drop_left] at dropped
  rw [← dropped]
  exact whole

theorem firstLine_nonempty (stop : α) (positive : 0 < limit) (more : l ≠ []) :
    firstLine stop limit l ≠ [] := by
  obtain ⟨k, rfl⟩ := Nat.exists_eq_add_one_of_ne_zero positive.ne'
  obtain ⟨x, rest, rfl⟩ := List.exists_cons_of_ne_nil more
  rw [firstLine]
  split <;> exact List.cons_ne_nil _ _

theorem firstLine_short (stop : α) (limit : Nat) (l : List α) :
    (firstLine stop limit l).length ≤ limit := by
  induction limit generalizing l with
  | zero => exact Nat.le_refl 0
  | succ limit ih =>
    cases l with
    | nil => exact Nat.zero_le _
    | cons x rest =>
      rw [firstLine]
      split
      · exact Nat.le_add_left 1 limit
      · exact Nat.succ_le_succ (ih rest)

theorem firstLine_once (stop : α) (limit : Nat) (l : List α) :
    stop ∉ (firstLine stop limit l).dropLast := by
  induction limit generalizing l with
  | zero => exact List.not_mem_nil
  | succ limit ih =>
    cases l with
    | nil => exact List.not_mem_nil
    | cons x rest =>
      rw [firstLine]
      split
      · exact List.not_mem_nil
      · next other =>
        cases tail : firstLine stop limit rest with
        | nil => exact List.not_mem_nil
        | cons y ys =>
          have later := ih rest
          rw [tail] at later
          rw [List.dropLast_cons_cons, List.mem_cons, not_or]
          exact ⟨Ne.symm other, later⟩

theorem firstLine_full (left_over : (firstLine stop limit l).length < l.length) :
    Full stop limit (firstLine stop limit l) := by
  induction limit generalizing l with
  | zero => exact .inr rfl
  | succ limit ih =>
    cases l with
    | nil => exact absurd left_over (Nat.not_lt_zero _)
    | cons x rest =>
      rw [firstLine] at left_over ⊢
      split at left_over
      · next same =>
        rw [if_pos same, same]
        exact .inl rfl
      · next other =>
        rw [if_neg other]
        rcases ih (Nat.lt_of_succ_lt_succ left_over) with ended | full
        · refine .inl ?_
          rw [List.getLast?_cons, ended]
          rfl
        · exact .inr (congrArg (· + 1) full)

/-- Nothing is lost. -/
theorem Cut.flatten_eq (cut : Cut stop limit l lines) : lines.flatten = l := by
  induction cut with
  | done => rfl
  | next more rest ih =>
    rw [List.flatten_cons, ih]
    exact firstLine_append stop limit _

theorem Cut.of_nil (cut : Cut stop limit l lines) (nothing : l = []) : lines = [] := by
  cases cut with
  | done => rfl
  | next more _ => exact absurd nothing more

theorem Cut.line (cut : Cut stop limit l lines) (positive : 0 < limit) :
    ∀ line ∈ lines, Line stop limit line := by
  induction cut with
  | done => exact List.forall_mem_nil _
  | next more rest ih =>
    rw [List.forall_mem_cons]
    exact ⟨⟨firstLine_nonempty stop positive more, firstLine_short stop limit _,
      firstLine_once stop limit _⟩, ih⟩

/-- Every line with another one behind it had to end. -/
theorem Cut.full (cut : Cut stop limit l lines) {front back : List (List α)} {line : List α}
    (split : lines = front ++ line :: back) (more : back ≠ []) : Full stop limit line := by
  induction cut generalizing front with
  | done => exact absurd split (by simp)
  | next nonempty rest ih =>
    cases front with
    | nil =>
      obtain ⟨rfl, rfl⟩ := List.cons.inj split
      apply firstLine_full
      by_contra whole
      exact more (rest.of_nil (List.drop_of_length_le (Nat.not_lt.mp whole)))
    | cons _ front => exact ih (List.cons.inj split).2

end AxiomeToolchain.Library.Lines
