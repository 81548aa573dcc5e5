import AxiomeToolchain.Library.Segments

/-!
# Lists joined by a separator

The components of a list are its nonempty parts between separators, in order.
Joining two lists puts a separator between them unless the first is empty or
ends in one; it is associative and appends the components.
-/

set_option autoImplicit false

namespace AxiomeToolchain.Library.Separated
open AxiomeToolchain.Library.Segments

variable {α : Type} {inside : α → Bool} {xs ys zs l : List α} {sep : α}

/-- An element that does not pass the test separates. -/
def components (inside : α → Bool) (l : List α) : List (List α) :=
  (l.splitOnP (fun a => !inside a)).filter (fun part => !part.isEmpty)

theorem components_nil (inside : α → Bool) : components inside [] = [] := by
  rw [components, List.splitOnP_nil]
  rfl

theorem components_append_cons (xs ys : List α) (outside : inside sep = false) :
    components inside (xs ++ sep :: ys) = components inside xs ++ components inside ys := by
  have separates : (!inside sep) = true := by rw [outside, Bool.not_false]
  rw [components, List.splitOnP_append_cons xs ys separates, List.filter_append]
  rfl

theorem components_whole (all : ∀ a ∈ xs, inside a = true) (nonempty : xs ≠ []) :
    components inside xs = [xs] := by
  have none_outside : ∀ a ∈ xs, (!inside a) = false := fun a member => by
    rw [all a member, Bool.not_true]
  rw [components, List.splitOnP_eq_singleton none_outside]
  exact List.filter_cons_of_pos (by simpa using nonempty)

/-- Separators in front do not count. -/
theorem components_dropWhile (inside : α → Bool) (l : List α) :
    components inside (l.dropWhile (fun a => !inside a)) = components inside l := by
  induction l with
  | nil => rfl
  | cons a rest ih =>
    cases passes : inside a with
    | true => rw [List.dropWhile_cons_of_neg (by simp [passes])]
    | false =>
      rw [List.dropWhile_cons_of_pos (by simp [passes]), ih]
      have skipped := components_append_cons [] rest passes
      rw [components_nil, List.nil_append, List.nil_append] at skipped
      exact skipped.symm

/-! ## As segments -/

def slice (l : List α) (seg : Segment) : List α := (l.drop seg.start).take (seg.stop - seg.start)

theorem slice_get {seg : Segment} {i : Nat} (inside : i < seg.stop - seg.start) :
    (slice l seg)[i]? = l[seg.start + i]? := by
  rw [slice, List.getElem?_take_of_lt inside, List.getElem?_drop]

theorem slice_length {seg : Segment} (within : seg.stop ≤ l.length) :
    (slice l seg).length = seg.stop - seg.start := by
  rw [slice, List.length_take, List.length_drop]
  omega

theorem dropWhile_eq (test : α → Bool) (l : List α) (pos : Nat) :
    (l.drop pos).dropWhile test = l.drop (pos + ((l.drop pos).takeWhile test).length) := by
  have whole := congrArg (List.drop ((l.drop pos).takeWhile test).length)
    (List.takeWhile_append_dropWhile (p := test) (l := l.drop pos))
  rw [List.drop_left] at whole
  rw [whole, List.drop_drop]

/-- A run is the first component from its start on. -/
theorem components_run {pos : Nat} {seg : Segment} (found : next inside l pos = some seg)
    (first : Next inside l pos seg) :
    components inside (l.drop pos) = slice l seg :: components inside (l.drop (seg.stop + 1)) := by
  obtain ⟨start_eq, stop_eq⟩ := next_eq_some found
  have taken : (l.drop seg.start).takeWhile inside = slice l seg := by
    have whole := congrArg (List.take ((l.drop seg.start).takeWhile inside).length)
      (List.takeWhile_append_dropWhile (p := inside) (l := l.drop seg.start))
    rw [List.take_left] at whole
    rw [slice, stop_eq, Nat.add_sub_cancel_left]
    exact whole
  have all : ∀ a ∈ slice l seg, inside a = true := by
    rw [← taken]
    exact fun a member => List.mem_takeWhile_imp member
  have nonempty : slice l seg ≠ [] := by
    have longer := first.nonempty
    rw [← taken, ← List.length_pos_iff]
    omega
  have split : l.drop seg.start = slice l seg ++ l.drop seg.stop := by
    have rest := dropWhile_eq inside l seg.start
    rw [← stop_eq] at rest
    rw [← taken, ← rest, List.takeWhile_append_dropWhile]
  rw [← components_dropWhile, dropWhile_eq, ← start_eq, split]
  rcases first.ended with whole | ⟨a, ended, outside⟩
  · rw [List.drop_eq_nil_of_le (Nat.le_of_eq whole.symm),
      List.drop_eq_nil_of_le (Nat.le_succ_of_le (Nat.le_of_eq whole.symm)), List.append_nil,
      components_whole all nonempty, components_nil]
  · obtain ⟨within, here⟩ := List.getElem?_eq_some_iff.mp ended
    rw [List.drop_eq_getElem_cons within, here, components_append_cons _ _ (by simpa using outside),
      components_whole all nonempty]
    rfl

theorem segmentsFrom_slice {rounds pos : Nat} (enough : l.length < pos + rounds) :
    (segmentsFrom inside l rounds pos).map (slice l) = components inside (l.drop pos) := by
  induction rounds generalizing pos with
  | zero =>
    rw [List.drop_eq_nil_of_le (i := pos) (Nat.le_of_lt enough), components_nil]
    rfl
  | succ rounds ih =>
    by_cases le : pos ≤ l.length
    · rcases next_cases inside l le with ⟨seg, found, first⟩ | ⟨none, -⟩
      · have nonempty := first.nonempty
        have after := first.after
        rw [segmentsFrom, found, List.map_cons, ih (by omega), components_run found first]
      · rw [segmentsFrom_nil none, ← components_dropWhile, dropWhile_eq, next_eq_none le none,
          List.drop_length, components_nil]
        rfl
    · have beyond : l.length ≤ pos := by omega
      rw [segmentsFrom_nil (next_beyond beyond), List.drop_eq_nil_of_le beyond, components_nil]
      rfl

/-- The maximal runs are the components. -/
theorem segments_slice (inside : α → Bool) (l : List α) :
    (segments inside l).map (slice l) = components inside l := by
  have enough : l.length < 0 + (l.length + 1) := by omega
  exact segmentsFrom_slice enough

/-! ## Joining -/

section Join
variable [DecidableEq α]

/-- What has to be put behind the list for the next one to start a part. -/
def closing (sep : α) (xs : List α) : List α :=
  if xs ≠ [] ∧ xs.getLast? ≠ some sep then [sep] else []

def join (sep : α) (xs ys : List α) : List α := xs ++ closing sep xs ++ ys

/-- The list is empty, open, or ends in a separator. -/
theorem closed_cases (sep : α) (xs : List α) :
    xs = [] ∨ closing sep xs = [sep] ∨ ∃ front, xs = front ++ [sep] := by
  by_cases empty : xs = []
  · exact .inl empty
  · by_cases last : xs.getLast? = some sep
    · exact .inr (.inr (List.getLast?_eq_some_iff.mp last))
    · exact .inr (.inl (if_pos ⟨empty, last⟩))

theorem mem_closing {a : α} (member : a ∈ closing sep xs) : a = sep := by
  rw [closing] at member
  split at member
  · exact List.mem_singleton.mp member
  · exact absurd member List.not_mem_nil

theorem closing_closed (sep : α) (front : List α) : closing sep (front ++ [sep]) = [] :=
  if_neg (fun both => both.2 List.getLast?_concat)

theorem closing_append (sep : α) (xs : List α) (nonempty : ys ≠ []) :
    closing sep (xs ++ ys) = closing sep ys := by
  rw [closing, closing, List.getLast?_append_of_ne_nil _ nonempty]
  exact if_congr (and_congr_left' (iff_of_true (by simp [nonempty]) nonempty)) rfl rfl

theorem join_nil_left (sep : α) (ys : List α) : join sep [] ys = ys := rfl

theorem join_assoc (sep : α) (xs ys zs : List α) :
    join sep (join sep xs ys) zs = join sep xs (join sep ys zs) := by
  by_cases empty : ys = []
  · have closed : closing sep (xs ++ closing sep xs) = [] := by
      rcases closed_cases sep xs with rfl | opened | ⟨front, rfl⟩
      · rfl
      · rw [opened, closing_closed]
      · rw [closing_closed, List.append_nil, closing_closed]
    rw [empty, join_nil_left, join, join, List.append_nil, closed, List.append_nil]
    rfl
  · rw [join, join, join, join, closing_append sep _ empty]
    simp only [List.append_assoc]

/-- A cut of the first list does not show in front of the cut. -/
theorem take_join (sep : α) (xs ys : List α) (n : Nat) :
    (join sep (xs.take n) ys).take n = (join sep xs ys).take n := by
  by_cases short : xs.length ≤ n
  · rw [List.take_of_length_le short]
  · have cut : n ≤ (xs.take n).length := by
      rw [List.length_take]
      omega
    rw [join, join, List.append_assoc, List.append_assoc, List.take_append_of_le_length cut,
      List.take_append_of_le_length (by omega), List.take_take, Nat.min_self]

theorem components_join (outside : inside sep = false) (xs ys : List α) :
    components inside (join sep xs ys) = components inside xs ++ components inside ys := by
  rw [join]
  rcases closed_cases sep xs with rfl | opened | ⟨front, rfl⟩
  · rw [components_nil]
    rfl
  · rw [opened, List.append_assoc, List.singleton_append, components_append_cons _ _ outside]
  · rw [closing_closed, List.append_nil, List.append_assoc, List.singleton_append,
      components_append_cons _ _ outside, components_append_cons _ _ outside, components_nil,
      List.append_nil]

end Join

end AxiomeToolchain.Library.Separated
