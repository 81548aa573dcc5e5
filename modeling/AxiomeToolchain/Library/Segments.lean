import Mathlib

/-!
# Maximal runs in a list

A segment is a stretch of positions. The segments of a test are the maximal
nonempty stretches of elements that pass it; they are found one after the other
from a position on, and the test may change from one to the next.
-/

set_option autoImplicit false

namespace AxiomeToolchain.Library.Segments

variable {α : Type}

structure Segment where
  start : Nat
  stop : Nat
  deriving DecidableEq, Repr

/-- There is an i-th element, and it passes the test. -/
def Holds (test : α → Bool) (l : List α) (i : Nat) : Prop := ∃ a ∈ l[i]?, test a = true

/-- The elements of the segment pass the test; what follows it, if anything, does not. -/
structure Covers (inside : α → Bool) (l : List α) (seg : Segment) : Prop where
  nonempty : seg.start < seg.stop
  within : seg.stop ≤ l.length
  all : ∀ i, seg.start ≤ i → i < seg.stop → Holds inside l i
  ended : seg.stop = l.length ∨ Holds (fun a => !inside a) l seg.stop

/-- A maximal run. -/
structure Maximal (inside : α → Bool) (l : List α) (seg : Segment) : Prop extends
    Covers inside l seg where
  begun : seg.start = 0 ∨ Holds (fun a => !inside a) l (seg.start - 1)

/-- The first run from `pos` on. -/
structure Next (inside : α → Bool) (l : List α) (pos : Nat) (seg : Segment) : Prop extends
    Covers inside l seg where
  after : pos ≤ seg.start
  skipped : ∀ i, pos ≤ i → i < seg.start → Holds (fun a => !inside a) l i

/-- Nothing from `pos` on passes the test. -/
def Exhausted (inside : α → Bool) (l : List α) (pos : Nat) : Prop :=
  ∀ i, pos ≤ i → i < l.length → Holds (fun a => !inside a) l i

/-- The list of all maximal runs, in order. -/
structure Enumerates (inside : α → Bool) (l : List α) (segs : List Segment) : Prop where
  ordered : segs.Pairwise (fun a b => a.stop < b.start)
  maximal : ∀ seg, seg ∈ segs ↔ Maximal inside l seg

/-- Where the search goes on behind a segment: after the element that ended it. -/
def resume (l : List α) (seg : Segment) : Option Nat :=
  if seg.stop < l.length then some (seg.stop + 1) else none

/-- One search after the other, each with its own test. -/
inductive Resumed (l : List α) : Option Nat → List (α → Bool) → List (Option Segment) → Prop
  | nil (pos : Option Nat) : Resumed l pos [] []
  | finished {inside : α → Bool} {tests : List (α → Bool)} {found : List (Option Segment)}
      (rest : Resumed l none tests found) : Resumed l none (inside :: tests) (none :: found)
  | exhausted {pos : Nat} {inside : α → Bool} {tests : List (α → Bool)}
      {found : List (Option Segment)} (empty : Exhausted inside l pos)
      (rest : Resumed l none tests found) : Resumed l (some pos) (inside :: tests) (none :: found)
  | found {pos : Nat} {inside : α → Bool} {seg : Segment} {tests : List (α → Bool)}
      {found : List (Option Segment)} (next : Next inside l pos seg)
      (rest : Resumed l (resume l seg) tests found) :
      Resumed l (some pos) (inside :: tests) (some seg :: found)

def next (inside : α → Bool) (l : List α) (pos : Nat) : Option Segment :=
  let start := pos + ((l.drop pos).takeWhile (fun a => !inside a)).length
  let stop := start + ((l.drop start).takeWhile inside).length
  if start < l.length then some ⟨start, stop⟩ else none

/-- As many runs as there are rounds, from `pos` on. -/
def segmentsFrom (inside : α → Bool) (l : List α) : Nat → Nat → List Segment
  | 0, _ => []
  | rounds + 1, pos =>
    match next inside l pos with
    | none => []
    | some seg => seg :: segmentsFrom inside l rounds (seg.stop + 1)

def segments (inside : α → Bool) (l : List α) : List Segment :=
  segmentsFrom inside l (l.length + 1) 0

variable {inside test : α → Bool} {l : List α} {pos i : Nat} {seg other : Segment}

theorem Holds.not_outside (holds : Holds inside l i) : ¬ Holds (fun a => !inside a) l i := by
  obtain ⟨a, found, passes⟩ := holds
  rintro ⟨b, found', fails⟩
  rw [Option.mem_def.mp found] at found'
  cases found'
  simp [passes] at fails

theorem Holds.lt_length (holds : Holds test l i) : i < l.length := by
  obtain ⟨a, found, -⟩ := holds
  exact (List.getElem?_eq_some_iff.mp found).1

/-! ## Finding the next run -/

/-- `takeWhile` stops at the end or at an element that fails the test. -/
theorem takeWhile_stop (test : α → Bool) (l : List α) :
    (∀ i, i < (l.takeWhile test).length → Holds test l i) ∧
      ((l.takeWhile test).length = l.length ∨
        Holds (fun a => !test a) l (l.takeWhile test).length) := by
  induction l with
  | nil => exact ⟨fun i none => absurd none (Nat.not_lt_zero i), .inl rfl⟩
  | cons a rest ih =>
    obtain ⟨all, ended⟩ := ih
    cases passes : test a with
    | false =>
      rw [List.takeWhile_cons_of_neg (by simp [passes])]
      refine ⟨fun i none => absurd none (Nat.not_lt_zero i), .inr ⟨a, rfl, ?_⟩⟩
      simp [passes]
    | true =>
      rw [List.takeWhile_cons_of_pos passes, List.length_cons, List.length_cons]
      constructor
      · intro i inside
        cases i with
        | zero => exact ⟨a, rfl, passes⟩
        | succ i => exact all i (Nat.lt_of_succ_lt_succ inside)
      · rcases ended with whole | stopped
        · exact .inl (congrArg (· + 1) whole)
        · exact .inr stopped

theorem holds_drop {k : Nat} : Holds test (l.drop pos) k ↔ Holds test l (pos + k) := by
  unfold Holds
  rw [List.getElem?_drop]

/-- The stretch of elements from `pos` on that pass the test. -/
theorem stretch (test : α → Bool) (l : List α) (le : pos ≤ l.length) :
    ∃ stop, stop = pos + ((l.drop pos).takeWhile test).length ∧ stop ≤ l.length ∧
      (∀ i, pos ≤ i → i < stop → Holds test l i) ∧
      (stop = l.length ∨ Holds (fun a => !test a) l stop) := by
  obtain ⟨all, ended⟩ := takeWhile_stop test (l.drop pos)
  have short := (List.takeWhile_sublist test (l := l.drop pos)).length_le
  rw [List.length_drop] at short ended
  refine ⟨_, rfl, by omega, ?_, ?_⟩
  · intro i low high
    obtain ⟨k, rfl⟩ := Nat.exists_eq_add_of_le low
    exact holds_drop.mp (all k (by omega))
  · rcases ended with whole | stopped
    · exact .inl (by omega)
    · exact .inr (holds_drop.mp stopped)

theorem next_cases (inside : α → Bool) (l : List α) (le : pos ≤ l.length) :
    (∃ seg, next inside l pos = some seg ∧ Next inside l pos seg) ∨
      (next inside l pos = none ∧ Exhausted inside l pos) := by
  obtain ⟨start, start_eq, start_le, skipped, at_start⟩ := stretch (fun a => !inside a) l le
  obtain ⟨stop, stop_eq, stop_le, all, ended⟩ := stretch inside l start_le
  have after : pos ≤ start := by omega
  by_cases more : start < l.length
  · refine .inl ⟨⟨start, stop⟩, ?_, ?_⟩
    · rw [next, ← start_eq, ← stop_eq]
      exact if_pos more
    · have first : Holds inside l start := by
        rcases at_start with whole | ⟨a, found, passes⟩
        · omega
        · exact ⟨a, found, by simpa using passes⟩
      have nonempty : start < stop := by
        by_contra none
        obtain rfl : start = stop := by omega
        rcases ended with whole | fails
        · omega
        · exact first.not_outside fails
      exact ⟨⟨nonempty, stop_le, all, ended⟩, after, skipped⟩
  · refine .inr ⟨?_, ?_⟩
    · rw [next, ← start_eq, ← stop_eq]
      exact if_neg more
    · exact fun i low high => skipped i low (by omega)

theorem next_beyond (beyond : l.length ≤ pos) : next inside l pos = none := by
  rw [next, List.drop_eq_nil_of_le beyond]
  exact if_neg (by simpa using beyond)

theorem next_eq_some (found : next inside l pos = some seg) :
    seg.start = pos + ((l.drop pos).takeWhile (fun a => !inside a)).length ∧
      seg.stop = seg.start + ((l.drop seg.start).takeWhile inside).length := by
  rw [next] at found
  split at found
  · cases found
    exact ⟨rfl, rfl⟩
  · cases found

theorem next_eq_none (le : pos ≤ l.length) (none : next inside l pos = none) :
    pos + ((l.drop pos).takeWhile (fun a => !inside a)).length = l.length := by
  obtain ⟨start, start_eq, start_le, -, -⟩ := stretch (fun a => !inside a) l le
  rw [next, ← start_eq] at none
  split at none
  · cases none
  · omega

/-- Runs that start together end together. -/
theorem Covers.stop_le (covers : Covers inside l seg) (covers' : Covers inside l other)
    (same : seg.start = other.start) : seg.stop ≤ other.stop := by
  by_contra longer
  have later := covers'.nonempty
  have within := covers.within
  rcases covers'.ended with whole | stopped
  · omega
  · exact (covers.all other.stop (by omega) (by omega)).not_outside stopped

theorem Covers.eq (covers : Covers inside l seg) (covers' : Covers inside l other)
    (same : seg.start = other.start) : seg = other := by
  have stops := Nat.le_antisymm (covers.stop_le covers' same) (covers'.stop_le covers same.symm)
  cases seg
  cases other
  simp_all

theorem Covers.first (covers : Covers inside l seg) : Holds inside l seg.start :=
  covers.all seg.start (Nat.le_refl _) covers.nonempty

theorem Covers.not_exhausted (covers : Covers inside l seg) (after : pos ≤ seg.start) :
    ¬ Exhausted inside l pos := by
  intro empty
  exact covers.first.not_outside (empty seg.start after covers.first.lt_length)

/-- A maximal run from `pos` on is the next one, or starts behind its end. -/
theorem Next.maximal_cases (first : Next inside l pos seg) (maximal : Maximal inside l other)
    (after : pos ≤ other.start) : other = seg ∨ seg.stop + 1 ≤ other.start := by
  have reached : seg.start ≤ other.start := by
    by_contra earlier
    exact maximal.first.not_outside (first.skipped other.start after (by omega))
  rcases Nat.eq_or_lt_of_le reached with same | later
  · exact .inl (maximal.toCovers.eq first.toCovers same.symm)
  · rcases maximal.begun with zero | before
    · omega
    · refine .inr ?_
      by_contra overlap
      exact (first.all (other.start - 1) (by omega) (by omega)).not_outside before

/-- The position is one at which a run may begin, or lies behind the list. -/
def Boundary (inside : α → Bool) (l : List α) (pos : Nat) : Prop :=
  pos = 0 ∨ l.length < pos ∨ Holds (fun a => !inside a) l (pos - 1)

theorem Next.maximal (first : Next inside l pos seg) (boundary : Boundary inside l pos) :
    Maximal inside l seg := by
  refine ⟨first.toCovers, ?_⟩
  have after := first.after
  have inList := first.first.lt_length
  rcases Nat.eq_or_lt_of_le after with same | later
  · rw [← same]
    rcases boundary with zero | beyond | before
    · exact .inl zero
    · omega
    · exact .inr before
  · exact .inr (first.skipped (seg.start - 1) (by omega) (by omega))

theorem Covers.boundary (covers : Covers inside l seg) : Boundary inside l (seg.stop + 1) := by
  rcases covers.ended with whole | stopped
  · exact .inr (.inl (by omega))
  · exact .inr (.inr stopped)

/-! ## All runs -/

theorem segmentsFrom_nil {rounds : Nat} (none : next inside l pos = none) :
    segmentsFrom inside l rounds pos = [] := by
  cases rounds with
  | zero => rfl
  | succ rounds => rw [segmentsFrom, none]

theorem mem_segmentsFrom {rounds : Nat} (enough : l.length < pos + rounds)
    (boundary : Boundary inside l pos) :
    other ∈ segmentsFrom inside l rounds pos ↔ Maximal inside l other ∧ pos ≤ other.start := by
  induction rounds generalizing pos with
  | zero =>
    refine iff_of_false (List.not_mem_nil) (fun both => ?_)
    have inList := both.1.first.lt_length
    have after := both.2
    omega
  | succ rounds ih =>
    by_cases le : pos ≤ l.length
    · rcases next_cases inside l le with ⟨seg, found, first⟩ | ⟨none, empty⟩
      · have nonempty := first.nonempty
        have after := first.after
        rw [segmentsFrom, found, List.mem_cons, ih (by omega) first.boundary]
        constructor
        · rintro (rfl | ⟨maximal, later⟩)
          · exact ⟨first.maximal boundary, after⟩
          · exact ⟨maximal, by omega⟩
        · intro ⟨maximal, from_pos⟩
          exact (first.maximal_cases maximal from_pos).imp_right (fun later => ⟨maximal, later⟩)
      · rw [segmentsFrom_nil none]
        refine iff_of_false List.not_mem_nil (fun both => ?_)
        exact both.1.not_exhausted both.2 empty
    · rw [segmentsFrom_nil (next_beyond (by omega))]
      refine iff_of_false List.not_mem_nil (fun both => ?_)
      have inList := both.1.first.lt_length
      have after := both.2
      omega

theorem segmentsFrom_ordered {rounds : Nat} (enough : l.length < pos + rounds) :
    (segmentsFrom inside l rounds pos).Pairwise (fun a b => a.stop < b.start) := by
  induction rounds generalizing pos with
  | zero => exact .nil
  | succ rounds ih =>
    by_cases le : pos ≤ l.length
    · rcases next_cases inside l le with ⟨seg, found, first⟩ | ⟨none, empty⟩
      · have nonempty := first.nonempty
        have after := first.after
        rw [segmentsFrom, found, List.pairwise_cons]
        refine ⟨fun later member => ?_, ih (by omega)⟩
        exact ((mem_segmentsFrom (by omega) first.boundary).mp member).2
      · rw [segmentsFrom_nil none]
        exact .nil
    · rw [segmentsFrom_nil (next_beyond (by omega))]
      exact .nil

theorem segments_enumerates (inside : α → Bool) (l : List α) :
    Enumerates inside l (segments inside l) where
  ordered := segmentsFrom_ordered (by omega)
  maximal seg := by
    rw [segments, mem_segmentsFrom (by omega) (.inl rfl)]
    exact and_iff_left (Nat.zero_le _)

/-! ## Searching again and again -/

theorem Resumed.done {tests : List (α → Bool)} {found : List (Option Segment)}
    (resumed : Resumed l none tests found) : found = List.replicate tests.length none := by
  induction tests generalizing found with
  | nil =>
    cases resumed
    rfl
  | cons test rest ih =>
    cases resumed with
    | finished later => rw [ih later, List.length_cons, List.replicate_succ]

theorem mem_resume {p : Nat} : p ∈ resume l seg ↔ seg.stop < l.length ∧ p = seg.stop + 1 := by
  unfold resume
  split
  · next more => simp [more, eq_comm]
  · next whole => simp [whole]

/-- What is found lies behind the position of the search. -/
theorem Resumed.after {start : Option Nat} {tests : List (α → Bool)}
    {found : List (Option Segment)} (resumed : Resumed l start tests found)
    (member : some seg ∈ found) : ∃ p ∈ start, p ≤ seg.start ∧ seg.start < seg.stop := by
  induction resumed with
  | nil => cases member
  | finished rest ih =>
    obtain ⟨p, behind, -⟩ := ih (by simpa using member)
    cases behind
  | exhausted empty rest ih =>
    obtain ⟨p, behind, -⟩ := ih (by simpa using member)
    cases behind
  | found next rest ih =>
    rw [List.mem_cons, Option.some_inj] at member
    rcases member with rfl | member
    · exact ⟨_, rfl, next.after, next.nonempty⟩
    · obtain ⟨p, behind, low, nonempty⟩ := ih member
      have earlier := next.after
      have longer := next.nonempty
      rw [mem_resume] at behind
      exact ⟨_, rfl, by omega, nonempty⟩

theorem map_nil_get {β : Type} (n : Nat) :
    (List.range n).map (fun k => ([] : List β)[k]?) = List.replicate n none := by
  simp

/-- With one test all along, the searches find the runs in order, then nothing. -/
theorem Resumed.constant {n rounds : Nat} {found : List (Option Segment)}
    (resumed : Resumed l (some pos) (List.replicate n inside) found) (le : pos ≤ l.length)
    (enough : l.length < pos + rounds) :
    found = (List.range n).map (fun k => (segmentsFrom inside l rounds pos)[k]?) := by
  induction n generalizing pos rounds found with
  | zero =>
    cases resumed
    rfl
  | succ n ih =>
    rw [List.replicate_succ] at resumed
    cases resumed with
    | exhausted empty later =>
      have none_next : next inside l pos = none := by
        rcases next_cases inside l le with ⟨seg, -, first⟩ | ⟨none, -⟩
        · exact absurd empty (first.not_exhausted first.after)
        · exact none
      rw [segmentsFrom_nil none_next, map_nil_get, later.done, List.length_replicate,
        List.replicate_succ]
    | @found _ _ seg _ rest first later =>
      have found_next : next inside l pos = some seg := by
        rcases next_cases inside l le with ⟨other, found, first'⟩ | ⟨-, empty⟩
        · rw [found]
          have starts : other.start = seg.start := by
            have low := first.after
            have low' := first'.after
            by_contra differ
            rcases Nat.lt_or_gt_of_ne differ with less | more
            · exact first'.first.not_outside (first.skipped _ low' less)
            · exact first.first.not_outside (first'.skipped _ low more)
          rw [first'.toCovers.eq first.toCovers starts]
        · exact absurd empty (first.not_exhausted first.after)
      have nonempty := first.nonempty
      have after := first.after
      have within := first.within
      obtain ⟨rounds, rfl⟩ : ∃ r, rounds = r + 1 := ⟨rounds - 1, by omega⟩
      have tail : rest = (List.range n).map
          (fun k => (segmentsFrom inside l rounds (seg.stop + 1))[k]?) := by
        by_cases more : seg.stop < l.length
        · rw [resume, if_pos more] at later
          exact ih later more (by omega)
        · rw [resume, if_neg more] at later
          rw [segmentsFrom_nil (next_beyond (by omega)), map_nil_get, later.done,
            List.length_replicate]
      rw [tail, segmentsFrom, found_next, List.range_succ_eq_map, List.map_cons, List.map_map]
      rfl

theorem Resumed.segments {n : Nat} {found : List (Option Segment)}
    (resumed : Resumed l (some 0) (List.replicate n inside) found) :
    found = (List.range n).map (fun k => (segments inside l)[k]?) :=
  resumed.constant (Nat.zero_le _) (by omega)

end AxiomeToolchain.Library.Segments
