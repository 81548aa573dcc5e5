import Mathlib

/-!
# Tilings of an interval by headed segments

A segment is a header of `h` bytes followed by `size` payload bytes, free or in
use. A list of segments tiles `[lo, hi)` when each starts where the one before
stops. The module has the two edits a first-fit allocator makes (carving a
segment in use out of a free one, and fusing free neighbours) and the fact the
canonical form rests on: a tiling without two free neighbours is determined by
its segments in use.
-/

set_option autoImplicit false

namespace AxiomeToolchain.Library.Tiling

structure Segment where
  start : Nat
  size : Nat
  free : Bool
  deriving DecidableEq, Repr

variable {h lo hi mid : Nat} {s t : Segment} {xs ys segs rest : List Segment}

def Segment.stop (h : Nat) (s : Segment) : Nat := s.start + h + s.size

def Tiles (h : Nat) : Nat → List Segment → Nat → Prop
  | lo, [], hi => lo = hi
  | lo, s :: rest, hi => s.start = lo ∧ Tiles h (s.stop h) rest hi

@[simp] theorem tiles_nil : Tiles h lo [] hi ↔ lo = hi := Iff.rfl

@[simp] theorem tiles_cons :
    Tiles h lo (s :: rest) hi ↔ s.start = lo ∧ Tiles h (s.stop h) rest hi := Iff.rfl

/-- No two consecutive segments are both free. -/
def Separated (segs : List Segment) : Prop :=
  segs.IsChain (fun s t => ¬ (s.free = true ∧ t.free = true))

/-- The segments in use. -/
def allocated (segs : List Segment) : List Segment := segs.filter (fun s => !s.free)

@[simp] theorem allocated_nil : allocated [] = [] := rfl

theorem allocated_cons_used (used : s.free = false) :
    allocated (s :: rest) = s :: allocated rest := by
  simp [allocated, used]

theorem allocated_cons_free (isFree : s.free = true) :
    allocated (s :: rest) = allocated rest := by
  simp [allocated, isFree]

theorem mem_allocated : s ∈ allocated segs ↔ s ∈ segs ∧ s.free = false := by
  simp [allocated]

theorem allocated_append : allocated (xs ++ ys) = allocated xs ++ allocated ys := by
  simp [allocated]

theorem tiles_append : Tiles h lo (xs ++ ys) hi ↔ ∃ mid, Tiles h lo xs mid ∧ Tiles h mid ys hi := by
  induction xs generalizing lo with
  | nil => simp
  | cons x xs ih =>
    simp only [List.cons_append, tiles_cons, ih]
    constructor
    · rintro ⟨at_lo, mid, left, right⟩
      exact ⟨mid, ⟨at_lo, left⟩, right⟩
    · rintro ⟨mid, ⟨at_lo, left⟩, right⟩
      exact ⟨at_lo, mid, left, right⟩

theorem Tiles.le (tiles : Tiles h lo segs hi) : lo ≤ hi := by
  induction segs generalizing lo with
  | nil => exact Nat.le_of_eq tiles
  | cons s rest ih =>
    have tail := ih tiles.2
    have first := tiles.1
    simp only [Segment.stop] at tail
    omega

theorem Tiles.bounds (tiles : Tiles h lo segs hi) (member : s ∈ segs) :
    lo ≤ s.start ∧ s.stop h ≤ hi := by
  induction segs generalizing lo with
  | nil => simp at member
  | cons t rest ih =>
    rcases List.mem_cons.mp member with rfl | later
    · exact ⟨Nat.le_of_eq tiles.1.symm, tiles.2.le⟩
    · have tail := ih tiles.2 later
      have first := tiles.1
      simp only [Segment.stop] at tail ⊢
      omega

/-- Earlier segments stop before later ones start. -/
theorem Tiles.pairwise (tiles : Tiles h lo segs hi) :
    segs.Pairwise (fun s t => s.stop h ≤ t.start) := by
  induction segs generalizing lo with
  | nil => exact .nil
  | cons s rest ih =>
    exact List.pairwise_cons.mpr ⟨fun t later => (tiles.2.bounds later).1, ih tiles.2⟩

theorem Tiles.start_inj (positive : 0 < h) (tiles : Tiles h lo segs hi) (hs : s ∈ segs)
    (ht : t ∈ segs) (same : s.start = t.start) : s = t := by
  induction segs generalizing lo with
  | nil => simp at hs
  | cons u rest ih =>
    have first := tiles.1
    have later : ∀ v ∈ rest, u.start < v.start := fun v member => by
      have bound := (tiles.2.bounds member).1
      simp only [Segment.stop] at bound
      omega
    rcases List.mem_cons.mp hs with s_head | s_later <;>
      rcases List.mem_cons.mp ht with t_head | t_later
    · exact s_head.trans t_head.symm
    · have := later t t_later
      rw [s_head] at same
      omega
    · have := later s s_later
      rw [t_head] at same
      omega
    · exact ih tiles.2 s_later t_later

theorem Tiles.length_le (tiles : Tiles h lo segs hi) : lo + h * segs.length ≤ hi := by
  induction segs generalizing lo with
  | nil => exact Nat.le_of_eq tiles
  | cons s rest ih =>
    have tail := ih tiles.2
    have first := tiles.1
    simp only [Segment.stop, List.length_cons, Nat.mul_succ] at tail ⊢
    omega

/-- Fuse a segment with its right neighbour: the neighbour's header becomes payload. -/
def fuse (h : Nat) (s t : Segment) : Segment := { s with size := s.size + (h + t.size) }

@[simp] theorem fuse_start : (fuse h s t).start = s.start := rfl
@[simp] theorem fuse_free : (fuse h s t).free = s.free := rfl
@[simp] theorem fuse_size : (fuse h s t).size = s.size + (h + t.size) := rfl

theorem fuse_stop (adjacent : t.start = s.stop h) : (fuse h s t).stop h = t.stop h := by
  simp only [Segment.stop, fuse_start, fuse_size] at *
  omega

/-- Fuse free neighbours from left to right, starting at `s`. -/
def coalesceFrom (h : Nat) (s : Segment) : List Segment → List Segment
  | [] => [s]
  | t :: rest =>
    if s.free = true ∧ t.free = true then coalesceFrom h (fuse h s t) rest
    else s :: coalesceFrom h t rest

def coalesce (h : Nat) : List Segment → List Segment
  | [] => []
  | s :: rest => coalesceFrom h s rest

theorem coalesceFrom_tiles (tiles : Tiles h lo (s :: rest) hi) :
    Tiles h lo (coalesceFrom h s rest) hi := by
  induction rest generalizing lo s with
  | nil => exact tiles
  | cons t rest ih =>
    obtain ⟨first, second, tail⟩ := tiles
    rw [coalesceFrom]
    split
    · exact ih ⟨first, by rw [fuse_stop second]; exact tail⟩
    · exact ⟨first, ih ⟨second, tail⟩⟩

/-- The list that coalescing leaves starts with a segment as free as `s` was. -/
theorem coalesceFrom_head (h : Nat) (s : Segment) (rest : List Segment) :
    ∃ t tail, coalesceFrom h s rest = t :: tail ∧ t.free = s.free := by
  induction rest generalizing s with
  | nil => exact ⟨s, [], rfl, rfl⟩
  | cons t rest ih =>
    rw [coalesceFrom]
    split
    · exact ih (fuse h s t)
    · exact ⟨s, _, rfl, rfl⟩

theorem coalesceFrom_separated (h : Nat) (s : Segment) (rest : List Segment) :
    Separated (coalesceFrom h s rest) := by
  induction rest generalizing s with
  | nil => exact List.isChain_singleton s
  | cons t rest ih =>
    rw [coalesceFrom]
    split
    · exact ih (fuse h s t)
    · next apart =>
      obtain ⟨u, tail, shape, freeness⟩ := coalesceFrom_head h t rest
      have tail_separated := ih t
      rw [shape] at tail_separated ⊢
      refine List.isChain_cons_cons.mpr ⟨?_, tail_separated⟩
      rw [freeness]
      exact apart

theorem coalesceFrom_allocated (h : Nat) (s : Segment) (rest : List Segment) :
    allocated (coalesceFrom h s rest) = allocated (s :: rest) := by
  induction rest generalizing s with
  | nil => rfl
  | cons t rest ih =>
    rw [coalesceFrom]
    split
    · next both =>
      rw [ih, allocated_cons_free (s := fuse h s t) both.1, allocated_cons_free both.1,
        allocated_cons_free both.2]
    · cases used : s.free with
      | true => rw [allocated_cons_free used, allocated_cons_free used, ih]
      | false => rw [allocated_cons_used used, allocated_cons_used used, ih]

theorem coalesce_tiles (tiles : Tiles h lo segs hi) : Tiles h lo (coalesce h segs) hi := by
  cases segs with
  | nil => exact tiles
  | cons s rest => exact coalesceFrom_tiles tiles

theorem coalesce_separated (h : Nat) (segs : List Segment) : Separated (coalesce h segs) := by
  cases segs with
  | nil => exact List.isChain_nil
  | cons s rest => exact coalesceFrom_separated h s rest

@[simp] theorem coalesce_allocated (h : Nat) (segs : List Segment) :
    allocated (coalesce h segs) = allocated segs := by
  cases segs with
  | nil => rfl
  | cons s rest => exact coalesceFrom_allocated h s rest

/-- The first segment in use, or the end, comes right after a leading free segment. -/
private theorem free_head_next (tiles : Tiles h lo (s :: rest) hi) (separated : Separated (s :: rest))
    (isFree : s.free = true) :
    (allocated rest = [] ∧ s.stop h = hi) ∨
      ∃ t tail, rest = t :: tail ∧ t.free = false ∧ t.start = s.stop h := by
  cases rest with
  | nil => exact .inl ⟨rfl, tiles.2⟩
  | cons t tail =>
    have apart := (List.isChain_cons_cons.mp separated).1
    exact .inr ⟨t, tail, rfl, by simpa [isFree] using apart, tiles.2.1⟩

/-- Where one tiling starts with a segment in use and the other with a free one,
the segments in use differ: the free one already covers the place. -/
private theorem heads_differ (positive : 0 < h) (used : s.free = false) (isFree : t.free = true)
    (at_lo : s.start = lo) (tiles : Tiles h lo (t :: ys) hi) :
    allocated (s :: xs) ≠ allocated (t :: ys) := by
  intro same
  rw [allocated_cons_used used, allocated_cons_free isFree] at same
  have member : s ∈ ys := (mem_allocated.mp (same ▸ List.mem_cons_self)).1
  have bound := (tiles.2.bounds member).1
  have first := tiles.1
  simp only [Segment.stop] at bound
  omega

/-- Leading free segments stop at the same place: at the next segment in use. -/
private theorem free_heads_stop (left : Tiles h lo (s :: xs) hi) (right : Tiles h lo (t :: ys) hi)
    (left_separated : Separated (s :: xs)) (right_separated : Separated (t :: ys))
    (free_s : s.free = true) (free_t : t.free = true) (same : allocated xs = allocated ys) :
    s.stop h = t.stop h := by
  rcases free_head_next left left_separated free_s with
      ⟨none_s, end_s⟩ | ⟨u, us, rfl, used_u, at_u⟩ <;>
    rcases free_head_next right right_separated free_t with
      ⟨none_t, end_t⟩ | ⟨v, vs, rfl, used_v, at_v⟩
  · rw [end_s, end_t]
  · rw [none_s, allocated_cons_used used_v] at same
    cases same
  · rw [none_t, allocated_cons_used used_u] at same
    cases same
  · rw [allocated_cons_used used_u, allocated_cons_used used_v] at same
    rw [← at_u, ← at_v, (List.cons.inj same).1]

private theorem segment_eq (start : s.start = t.start) (stop : s.stop h = t.stop h)
    (free : s.free = t.free) : s = t := by
  have size : s.size = t.size := by
    simp only [Segment.stop] at stop
    omega
  cases s
  cases t
  simp only [Segment.mk.injEq]
  exact ⟨start, size, free⟩

/-- A tiling without free neighbours is determined by its segments in use. -/
theorem tiling_unique (positive : 0 < h) (left : Tiles h lo xs hi) (right : Tiles h lo ys hi)
    (left_separated : Separated xs) (right_separated : Separated ys)
    (same : allocated xs = allocated ys) : xs = ys := by
  induction xs generalizing lo ys with
  | nil =>
    cases ys with
    | nil => rfl
    | cons t ys =>
      have size := right.length_le
      simp only [tiles_nil, List.length_cons, Nat.mul_succ] at left size
      omega
  | cons s xs ih =>
    cases ys with
    | nil =>
      have size := left.length_le
      simp only [tiles_nil, List.length_cons, Nat.mul_succ] at right size
      omega
    | cons t ys =>
      have tails : s = t → allocated xs = allocated ys → s :: xs = t :: ys := by
        rintro rfl rest_same
        rw [ih left.2 right.2 left_separated.tail right_separated.tail rest_same]
      cases free_s : s.free with
      | false =>
        cases free_t : t.free with
        | false =>
          rw [allocated_cons_used free_s, allocated_cons_used free_t] at same
          exact tails (List.cons.inj same).1 (List.cons.inj same).2
        | true => exact absurd same (heads_differ positive free_s free_t left.1 right)
      | true =>
        cases free_t : t.free with
        | false => exact absurd same.symm (heads_differ positive free_t free_s right.1 left)
        | true =>
          rw [allocated_cons_free free_s, allocated_cons_free free_t] at same
          have stops := free_heads_stop left right left_separated right_separated free_s free_t same
          have starts : s.start = t.start := left.1.trans right.1.symm
          exact tails (segment_eq starts stops (free_s.trans free_t.symm)) same

/-! ## Runs of free segments -/

/-- One segment, or several free ones in a row. -/
structure Stretch where
  first : Segment
  more : List Segment
  together : more = [] ∨ ∀ s ∈ first :: more, s.free = true

def Stretch.segments (r : Stretch) : List Segment := r.first :: r.more

/-- The segment in place of a stretch: all headers but the first become payload. -/
def Stretch.merged (h : Nat) (r : Stretch) : Segment :=
  ⟨r.first.start, (r.segments.map Segment.size).sum + h * r.more.length, r.first.free⟩

def Stretch.single (s : Segment) : Stretch := ⟨s, [], .inl rfl⟩

theorem Stretch.all_free (r : Stretch) (isFree : r.first.free = true) :
    ∀ s ∈ r.segments, s.free = true := by
  obtain ⟨first, more, alone | all⟩ := r
  · subst alone
    exact List.forall_mem_singleton.mpr isFree
  · exact all

def Stretch.extend (s : Segment) (r : Stretch) (both : s.free = true ∧ r.first.free = true) :
    Stretch :=
  ⟨s, r.segments, .inr (List.forall_mem_cons.mpr ⟨both.1, r.all_free both.2⟩)⟩

/-- Put a segment in front, to the first stretch if both are free. -/
def extendStretches (s : Segment) : List Stretch → List Stretch
  | [] => [.single s]
  | r :: later =>
    if both : s.free = true ∧ r.first.free = true then .extend s r both :: later
    else .single s :: r :: later

/-- The longest stretches that a list consists of. -/
def stretches : List Segment → List Stretch
  | [] => []
  | s :: rest => extendStretches s (stretches rest)

theorem extendStretches_flatten (s : Segment) (rs : List Stretch) :
    (extendStretches s rs).flatMap Stretch.segments = s :: rs.flatMap Stretch.segments := by
  cases rs with
  | nil => rfl
  | cons r later =>
    rw [extendStretches]
    split <;> rfl

theorem stretches_flatten (segs : List Segment) :
    (stretches segs).flatMap Stretch.segments = segs := by
  induction segs with
  | nil => rfl
  | cons s rest ih => rw [stretches, extendStretches_flatten, ih]

/-- No two neighbouring stretches are both free, so none could be longer. -/
def Maximal (rs : List Stretch) : Prop :=
  rs.IsChain (fun r q => ¬ (r.first.free = true ∧ q.first.free = true))

theorem extendStretches_maximal {rs : List Stretch} (s : Segment) (maximal : Maximal rs) :
    Maximal (extendStretches s rs) := by
  cases rs with
  | nil => exact List.isChain_singleton _
  | cons r later =>
    rw [extendStretches]
    split
    · next both =>
      cases later with
      | nil => exact List.isChain_singleton _
      | cons q later =>
        obtain ⟨apart, tail⟩ := List.isChain_cons_cons.mp maximal
        exact List.isChain_cons_cons.mpr ⟨fun free => apart ⟨both.2, free.2⟩, tail⟩
    · next apart => exact List.isChain_cons_cons.mpr ⟨apart, maximal⟩

theorem stretches_maximal (segs : List Segment) : Maximal (stretches segs) := by
  induction segs with
  | nil => exact List.isChain_nil
  | cons s rest ih => exact extendStretches_maximal s ih

@[simp] theorem merged_single (h : Nat) (s : Segment) : (Stretch.single s).merged h = s := by
  simp [Stretch.merged, Stretch.single, Stretch.segments]

theorem merged_extend {r : Stretch} (both : s.free = true ∧ r.first.free = true) :
    (Stretch.extend s r both).merged h = fuse h s (r.merged h) := by
  simp only [fuse, Stretch.merged, Stretch.extend, Stretch.segments, List.map_cons, List.sum_cons,
    List.length_cons, Segment.mk.injEq, true_and, and_true]
  ring

theorem fuse_fuse (s t u : Segment) : fuse h (fuse h s t) u = fuse h s (fuse h t u) := by
  simp only [fuse, Segment.mk.injEq, true_and, and_true]
  omega

theorem merged_cons_free {r : Stretch} (later : List Stretch) (isFree : s.free = true)
    (free_first : r.first.free = true) :
    (extendStretches s (r :: later)).map (Stretch.merged h) =
      fuse h s (r.merged h) :: later.map (Stretch.merged h) := by
  rw [extendStretches, dif_pos ⟨isFree, free_first⟩, List.map_cons, merged_extend]

theorem merged_cons_apart {r : Stretch} (later : List Stretch)
    (apart : ¬ (s.free = true ∧ r.first.free = true)) :
    (extendStretches s (r :: later)).map (Stretch.merged h) =
      s :: (r :: later).map (Stretch.merged h) := by
  rw [extendStretches, dif_neg apart, List.map_cons, merged_single]

theorem extendStretches_first (t : Segment) (rs : List Stretch) :
    ∃ r later, extendStretches t rs = r :: later ∧ r.first = t := by
  cases rs with
  | nil => exact ⟨.single t, [], rfl, rfl⟩
  | cons r later =>
    rw [extendStretches]
    split
    · next both => exact ⟨.extend t r both, later, rfl, rfl⟩
    · exact ⟨.single t, r :: later, rfl, rfl⟩

/-- Two free segments in front go to the stretch of the segment they fuse to. -/
theorem merged_fuse (h : Nat) (s t : Segment) (rs : List Stretch)
    (both : s.free = true ∧ t.free = true) :
    (extendStretches (fuse h s t) rs).map (Stretch.merged h) =
      (extendStretches s (extendStretches t rs)).map (Stretch.merged h) := by
  have fused : (fuse h s t).free = true := both.1
  obtain ⟨q, later, shape, first⟩ := extendStretches_first t rs
  have merged_t := congrArg (List.map (Stretch.merged h)) shape
  rw [shape, merged_cons_free later both.1 (first ▸ both.2)]
  cases rs with
  | nil =>
    rw [extendStretches, List.map_singleton, merged_single] at merged_t ⊢
    obtain ⟨same, none⟩ := List.cons.inj merged_t
    rw [← same, ← none]
  | cons r rest =>
    by_cases isFree : r.first.free = true
    · rw [merged_cons_free rest both.2 isFree] at merged_t
      obtain ⟨same, others⟩ := List.cons.inj merged_t
      rw [merged_cons_free rest fused isFree, fuse_fuse, same, others]
    · rw [merged_cons_apart rest (fun all => isFree all.2)] at merged_t ⊢
      obtain ⟨same, others⟩ := List.cons.inj merged_t
      rw [← same, others]

theorem coalesceFrom_eq (h : Nat) (s : Segment) (rest : List Segment) :
    coalesceFrom h s rest = (stretches (s :: rest)).map (Stretch.merged h) := by
  induction rest generalizing s with
  | nil => rw [coalesceFrom, stretches, stretches, extendStretches, List.map_singleton, merged_single]
  | cons t rest ih =>
    rw [coalesceFrom, ih, ih]
    simp only [stretches]
    split
    · next both => exact merged_fuse h s t _ both
    · next apart =>
      obtain ⟨q, later, shape, first⟩ := extendStretches_first t (stretches rest)
      rw [shape, merged_cons_apart later (first ▸ apart)]

theorem coalesce_stretches (h : Nat) (segs : List Segment) :
    coalesce h segs = (stretches segs).map (Stretch.merged h) := by
  cases segs with
  | nil => rfl
  | cons s rest => exact coalesceFrom_eq h s rest

end AxiomeToolchain.Library.Tiling
