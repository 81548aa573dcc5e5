import AxiomeToolchain.Library.Tiling

/-!
# First fit over a tiling

`allocate` takes the first free segment of at least `r` payload bytes; when the
rest of it has room for a header and `slack` bytes the rest stays free.
`release` frees the segment that starts at a position and fuses free neighbours.
In a tiling without free neighbours the free segments are the gaps between the
segments in use, so first fit can be told from the segments in use alone
(`allocate_gaps`).
-/

set_option autoImplicit false

namespace AxiomeToolchain.Library.FirstFit
open AxiomeToolchain.Library.Tiling

variable {h slack r p lo hi : Nat} {s t g : Segment} {segs out rest before after : List Segment}

/-- The segment in use that `s` becomes. -/
def granted (h slack r : Nat) (s : Segment) : Segment :=
  ⟨s.start, if r + h + slack ≤ s.size then r else s.size, false⟩

def carve (h slack r : Nat) (s : Segment) : List Segment :=
  if r + h + slack ≤ s.size then
    [granted h slack r s, ⟨s.start + h + r, s.size - r - h, true⟩]
  else [granted h slack r s]

def allocate (h slack r : Nat) : List Segment → Option (Segment × List Segment)
  | [] => none
  | s :: rest =>
    if s.free = true ∧ r ≤ s.size then some (granted h slack r s, carve h slack r s ++ rest)
    else (allocate h slack r rest).map (fun found => (found.1, s :: found.2))

@[simp] theorem granted_start : (granted h slack r s).start = s.start := rfl
@[simp] theorem granted_free : (granted h slack r s).free = false := rfl

/-- All that a successful allocation does to the list. -/
theorem allocate_some (found : allocate h slack r segs = some (g, out)) :
    ∃ before s after, segs = before ++ s :: after ∧ s.free = true ∧ r ≤ s.size ∧
      (∀ t ∈ before, ¬ (t.free = true ∧ r ≤ t.size)) ∧
      g = granted h slack r s ∧ out = before ++ (carve h slack r s ++ after) := by
  induction segs generalizing out with
  | nil => simp [allocate] at found
  | cons s rest ih =>
    rw [allocate] at found
    split at found
    · next fit =>
      simp only [Option.some.injEq, Prod.mk.injEq] at found
      exact ⟨[], s, rest, rfl, fit.1, fit.2, by simp, found.1.symm, found.2.symm⟩
    · next misfit =>
      simp only [Option.map_eq_some_iff, Prod.mk.injEq] at found
      obtain ⟨⟨g', out'⟩, inner, rfl, rfl⟩ := found
      obtain ⟨before, t, after, rfl, isFree, large, smaller, rfl, rfl⟩ := ih inner
      refine ⟨s :: before, t, after, rfl, isFree, large, ?_, rfl, rfl⟩
      intro u member
      rcases List.mem_cons.mp member with rfl | later
      · exact misfit
      · exact smaller u later

theorem allocate_eq_none :
    allocate h slack r segs = none ↔ ∀ s ∈ segs, ¬ (s.free = true ∧ r ≤ s.size) := by
  induction segs with
  | nil => simp [allocate]
  | cons s rest ih =>
    rw [allocate, List.forall_mem_cons, ← ih]
    split
    · next fit => exact iff_of_false (Option.some_ne_none _) (fun both => both.1 fit)
    · next misfit => rw [Option.map_eq_none_iff, and_iff_right misfit]

theorem carve_tiles (tiles : Tiles h lo (s :: after) hi) :
    Tiles h lo (carve h slack r s ++ after) hi := by
  obtain ⟨first, tail⟩ := tiles
  unfold carve granted
  split
  · next room =>
    have stop : (Segment.mk (s.start + h + r) (s.size - r - h) true).stop h = s.stop h := by
      simp only [Segment.stop]
      omega
    simp only [List.cons_append, List.nil_append, tiles_cons, stop]
    exact ⟨first, rfl, tail⟩
  · simp only [List.cons_append, List.nil_append, tiles_cons]
    exact ⟨first, tail⟩

theorem allocate_tiles (found : allocate h slack r segs = some (g, out))
    (tiles : Tiles h lo segs hi) : Tiles h lo out hi := by
  obtain ⟨before, s, after, rfl, -, -, -, -, rfl⟩ := allocate_some found
  obtain ⟨mid, left, right⟩ := tiles_append.mp tiles
  exact tiles_append.mpr ⟨mid, left, carve_tiles right⟩

theorem carve_separated (isFree : s.free = true) (separated : Separated (s :: after)) :
    Separated (carve h slack r s ++ after) := by
  unfold carve
  split
  · refine List.isChain_cons_cons.mpr ⟨by simp, ?_⟩
    cases after with
    | nil => exact List.isChain_singleton _
    | cons t after =>
      obtain ⟨apart, tail⟩ := List.isChain_cons_cons.mp separated
      exact List.isChain_cons_cons.mpr ⟨by simpa [isFree] using apart, tail⟩
  · cases after with
    | nil => exact List.isChain_singleton _
    | cons t after =>
      exact List.isChain_cons_cons.mpr ⟨by simp, (List.isChain_cons_cons.mp separated).2⟩

theorem allocate_separated (found : allocate h slack r segs = some (g, out))
    (separated : Separated segs) : Separated out := by
  obtain ⟨before, s, after, rfl, isFree, -, -, -, rfl⟩ := allocate_some found
  obtain ⟨left, right, seam⟩ := List.isChain_append.mp separated
  refine List.isChain_append.mpr ⟨left, carve_separated isFree right, ?_⟩
  intro x last y first
  have used : y.free = false := by
    unfold carve at first
    split at first <;>
      · simp only [List.cons_append, List.head?_cons, Option.mem_some_iff] at first
        rw [← first]
        rfl
  simp [used]

theorem carve_allocated : allocated (carve h slack r s ++ after) =
    granted h slack r s :: allocated after := by
  unfold carve
  split <;> simp [allocated]

/-- The grant is inserted among the segments in use; those stay as they are. -/
theorem allocate_allocated (found : allocate h slack r segs = some (g, out)) :
    ∃ left right, allocated segs = left ++ right ∧ allocated out = left ++ g :: right := by
  obtain ⟨before, s, after, rfl, isFree, -, -, rfl, rfl⟩ := allocate_some found
  refine ⟨allocated before, allocated after, ?_, ?_⟩
  · rw [allocated_append, allocated_cons_free isFree]
  · rw [allocated_append, carve_allocated]

/-- A grant is large enough and lies inside the tiled interval. -/
theorem allocate_grant (found : allocate h slack r segs = some (g, out)) :
    r ≤ g.size ∧ g.free = false ∧ g ∈ out := by
  obtain ⟨before, s, after, rfl, -, large, -, rfl, rfl⟩ := allocate_some found
  refine ⟨?_, rfl, ?_⟩
  · unfold granted
    split <;> simp [large]
  · unfold carve
    split <;> simp

/-- Mark the segment that starts at `p` free. -/
def mark (p : Nat) (segs : List Segment) : List Segment :=
  segs.map (fun s => if s.start = p then { s with free := true } else s)

def release (h p : Nat) (segs : List Segment) : List Segment := coalesce h (mark p segs)

@[simp] theorem mark_cons :
    mark p (s :: rest) = (if s.start = p then { s with free := true } else s) :: mark p rest := rfl

theorem mark_tiles (tiles : Tiles h lo segs hi) : Tiles h lo (mark p segs) hi := by
  induction segs generalizing lo with
  | nil => exact tiles
  | cons s rest ih =>
    rw [mark_cons]
    split
    · exact ⟨tiles.1, ih tiles.2⟩
    · exact ⟨tiles.1, ih tiles.2⟩

theorem mark_allocated (p : Nat) (segs : List Segment) :
    allocated (mark p segs) = (allocated segs).filter (fun s => s.start ≠ p) := by
  induction segs with
  | nil => rfl
  | cons s rest ih =>
    rw [mark_cons]
    by_cases here : s.start = p
    · rw [if_pos here, allocated_cons_free rfl, ih]
      cases used : s.free with
      | true => rw [allocated_cons_free used]
      | false => rw [allocated_cons_used used, List.filter_cons_of_neg (by simp [here])]
    · rw [if_neg here]
      cases used : s.free with
      | true => rw [allocated_cons_free used, allocated_cons_free used, ih]
      | false =>
        rw [allocated_cons_used used, allocated_cons_used used, ih,
          List.filter_cons_of_pos (by simp [here])]

theorem release_separated : Separated (release h p segs) := coalesce_separated h _

@[simp] theorem release_allocated (h p : Nat) (segs : List Segment) :
    allocated (release h p segs) = (allocated segs).filter (fun s => s.start ≠ p) := by
  rw [release, coalesce_allocated, mark_allocated]

/-- A gap between segments in use: where it starts and how many bytes it has. -/
structure Gap where
  start : Nat
  size : Nat
  deriving DecidableEq, Repr

/-- The gaps of `[lo, hi)` around the segments `used`, in address order. -/
def gaps (h : Nat) : Nat → List Segment → Nat → List Gap
  | lo, [], hi => [⟨lo, hi - lo⟩]
  | lo, s :: rest, hi => ⟨lo, s.start - lo⟩ :: gaps h (s.stop h) rest hi

/-- The segment that first fit puts into a gap. -/
def placed (h slack r : Nat) (gap : Gap) : Segment :=
  ⟨gap.start, if r + h + slack + h ≤ gap.size then r else gap.size - h, false⟩

def firstGap (h r : Nat) (all : List Gap) : Option Gap :=
  all.find? (fun gap => decide (r + h ≤ gap.size))

private theorem firstGap_skip (positive : 0 < h) (start : Nat) (all : List Gap) :
    firstGap h r (⟨start, 0⟩ :: all) = firstGap h r all := by
  rw [firstGap, List.find?_cons_of_neg (by simp; omega)]
  rfl

private theorem granted_eq_placed (stop : s.start + h + s.size = hi) (at_lo : s.start = lo) :
    granted h slack r s = placed h slack r ⟨lo, hi - lo⟩ := by
  have size : hi - lo = s.size + h := by omega
  simp only [granted, placed, size, at_lo, Nat.add_le_add_iff_right, Nat.add_sub_cancel]

/-- First fit over the headers is first fit over the gaps: a tiling without free
neighbours hides no room, so only the segments in use matter. -/
theorem allocate_gaps (positive : 0 < h) (tiles : Tiles h lo segs hi)
    (separated : Separated segs) :
    (allocate h slack r segs).map Prod.fst =
      (firstGap h r (gaps h lo (allocated segs) hi)).map (placed h slack r) := by
  induction segs generalizing lo with
  | nil =>
    simp only [tiles_nil] at tiles
    subst tiles
    rw [allocated_nil, gaps, Nat.sub_self, firstGap_skip positive]
    rfl
  | cons s rest ih =>
    obtain ⟨at_lo, tail⟩ := tiles
    have inner := ih tail separated.tail
    have skip : ∀ (misfit : ¬ (s.free = true ∧ r ≤ s.size)),
        (allocate h slack r (s :: rest)).map Prod.fst = (allocate h slack r rest).map Prod.fst :=
      fun misfit => by
        rw [allocate, if_neg misfit, Option.map_map]
        rfl
    cases isFree : s.free with
    | false =>
      rw [skip (by simp [isFree]), inner, allocated_cons_used isFree, gaps, at_lo, Nat.sub_self,
        firstGap_skip positive]
    | true =>
      rw [allocated_cons_free isFree]
      -- A free segment ends where the next segment in use starts, or at `hi`.
      have next : ∃ more, gaps h lo (allocated rest) hi = ⟨lo, s.stop h - lo⟩ :: more ∧
          firstGap h r (gaps h (s.stop h) (allocated rest) hi) = firstGap h r more := by
        cases rest with
        | nil =>
          simp only [tiles_nil] at tail
          refine ⟨[], by rw [allocated_nil, gaps, tail], ?_⟩
          rw [allocated_nil, gaps, tail, Nat.sub_self, firstGap_skip positive]
        | cons t rest =>
          have apart := (List.isChain_cons_cons.mp separated).1
          have used : t.free = false := by simpa [isFree] using apart
          rw [allocated_cons_used used, gaps, gaps, tail.1, Nat.sub_self, firstGap_skip positive]
          exact ⟨_, rfl, rfl⟩
      obtain ⟨more, shape, same⟩ := next
      have size : s.stop h - lo = s.size + h := by simp only [Segment.stop]; omega
      by_cases large : r ≤ s.size
      · rw [allocate, if_pos ⟨isFree, large⟩, shape, firstGap,
          List.find?_cons_of_pos (by simp [size, large])]
        simp only [Option.map_some]
        rw [granted_eq_placed rfl at_lo]
        rfl
      · rw [skip (by simp [large]), inner, same, shape, firstGap, firstGap,
          List.find?_cons_of_neg (by simp [size]; omega)]

/-- Every gap starts at or after `lo`, and later gaps start higher. -/
theorem gaps_sorted (positive : 0 < h) (ordered : segs.Pairwise (fun s t => s.stop h ≤ t.start))
    (above : ∀ s ∈ segs, lo ≤ s.start) :
    (gaps h lo segs hi).Pairwise (fun a b => a.start < b.start) ∧
      ∀ gap ∈ gaps h lo segs hi, lo ≤ gap.start := by
  induction segs generalizing lo with
  | nil => simp [gaps]
  | cons s rest ih =>
    obtain ⟨after, tail⟩ := List.pairwise_cons.mp ordered
    obtain ⟨sorted, lower⟩ := ih tail after
    have start := above s List.mem_cons_self
    have low : ∀ gap ∈ gaps h (s.stop h) rest hi, lo < gap.start := fun gap member =>
      Nat.lt_of_lt_of_le (by simp only [Segment.stop]; omega) (lower gap member)
    refine ⟨List.pairwise_cons.mpr ⟨low, sorted⟩, ?_⟩
    intro gap member
    rcases List.mem_cons.mp member with rfl | later
    · exact Nat.le_refl lo
    · exact Nat.le_of_lt (low gap later)

/-- The first gap that is large enough is the lowest one. -/
theorem firstGap_lowest {all : List Gap} {gap : Gap}
    (sorted : all.Pairwise (fun a b => a.start < b.start)) (member : gap ∈ all)
    (large : r + h ≤ gap.size)
    (lowest : ∀ other ∈ all, r + h ≤ other.size → gap.start ≤ other.start) :
    firstGap h r all = some gap := by
  obtain ⟨before, after, rfl⟩ := List.append_of_mem member
  refine List.find?_eq_some_iff_append.mpr ⟨by simpa using large, before, after, rfl, ?_⟩
  intro other earlier
  have below := (List.pairwise_append.mp sorted).2.2 other earlier gap List.mem_cons_self
  have bound := lowest other (List.mem_append_left _ earlier)
  simp only [Bool.not_eq_true', decide_eq_false_iff_not]
  omega

end AxiomeToolchain.Library.FirstFit
