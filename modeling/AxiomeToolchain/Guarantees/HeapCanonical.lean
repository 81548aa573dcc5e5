import AxiomeToolchain.Source.HeapRuns

/-!
# The block list is a function of the blocks in use

Splitting and coalescing leave no trace of the order of the calls: two runs
that end with the same blocks in use end with the same headers. What follows
for one heap: the order of frees does not matter, free undoes malloc, and a
heap without live pointers is the single free block again.
-/

set_option autoImplicit false

namespace AxiomeToolchain.Guarantees.HeapCanonical
open AxiomeToolchain.Library.Tiling
open AxiomeToolchain.Library.FirstFit
open AxiomeToolchain.Library.Runs
open AxiomeToolchain.Source.Heap

/-- `free(p)` for each pointer of a list, in order. -/
def freeAll (st : State) : List Nat → Option State
  | [] => some st
  | p :: rest => (free st p).bind (fun st => freeAll st rest)

/-- The header of the single free block that init_heap makes. -/
def initialBlock (site : Site) : Block := ⟨site.base, heapSize - 24, 1, null⟩

variable {site : Site} {c d : Client} {s g : Segment} {segs other out : List Segment}
  {ps qs : List Nat}

theorem allocated_sorted (inv : Inv site c segs) :
    (allocated segs).Pairwise (fun s t => s.start < t.start) := by
  refine (inv.heap.tiles.pairwise.imp (fun {s t} below => ?_)).filter _
  simp only [Segment.stop, blockSize] at below
  omega

/-- Two heaps with the same list of blocks in use are the same list of blocks. -/
theorem inv_unique (left : Inv site c segs) (right : Inv site d other)
    (same : allocated segs = allocated other) : segs = other :=
  tiling_unique blockSize_pos left.heap.tiles right.heap.tiles left.separated right.separated same

theorem blockList_unique (left : Inv site c segs) (right : Inv site d other)
    (same : allocated segs = allocated other) :
    blockList site c.state = blockList site d.state := by
  rw [blockList_eq left.heap, blockList_eq right.heap, inv_unique left right same]

/-- Blocks in use come in address order, so a set of them is a list of them. -/
theorem allocated_of_mem_iff (left : Inv site c segs) (right : Inv site d other)
    (same : ∀ s, s ∈ allocated segs ↔ s ∈ allocated other) : allocated segs = allocated other := by
  have ne_of_lt : ∀ {s t : Segment}, s.start < t.start → s ≠ t := by
    rintro s t below rfl
    exact Nat.lt_irrefl _ below
  have perm := (List.perm_ext_iff_of_nodup ((allocated_sorted left).imp ne_of_lt)
    ((allocated_sorted right).imp ne_of_lt)).mpr same
  exact perm.eq_of_pairwise (fun s t _ _ up down => absurd up (Nat.lt_asymm down))
    (allocated_sorted left) (allocated_sorted right)

/-- Freeing distinct live pointers leaves the blocks of the others. -/
theorem freeAll_inv (inv : Inv site c segs) (nodup : ps.Nodup) (live : ∀ p ∈ ps, p ∈ c.live) :
    ∃ st segs', freeAll c.state ps = some st ∧ Inv site ⟨st, c.live.diff ps⟩ segs' ∧
      allocated segs' = (allocated segs).filter (fun s => s.start + blockSize ∉ ps) := by
  induction ps generalizing c segs with
  | nil => exact ⟨c.state, segs, rfl, inv, by simp⟩
  | cons p ps ih =>
    obtain ⟨fresh, rest_nodup⟩ := List.nodup_cons.mp nodup
    obtain ⟨s, -, -, rfl, st, run, inv'⟩ := inv.free_live (live p List.mem_cons_self)
    have still_live : ∀ q ∈ ps, q ∈ c.live.erase (s.start + blockSize) := fun q member =>
      (List.mem_erase_of_ne (by rintro rfl; exact fresh member)).mpr
        (live q (List.mem_cons_of_mem _ member))
    obtain ⟨st', segs', run', inv'', left⟩ := ih inv' rest_nodup still_live
    refine ⟨st', segs', by simp [freeAll, run, run'], by simpa [List.diff_cons] using inv'', ?_⟩
    rw [left, release_allocated, List.filter_filter]
    apply List.filter_congr
    intro t _
    rw [Bool.eq_iff_iff]
    simp [and_comm]

theorem freeAll_perm (inv : Inv site c segs) (perm : ps.Perm qs) (nodup : ps.Nodup)
    (live : ∀ p ∈ ps, p ∈ c.live) :
    ∃ s₁ s₂, freeAll c.state ps = some s₁ ∧ freeAll c.state qs = some s₂ ∧
      blockList site s₁ = blockList site s₂ := by
  obtain ⟨s₁, segs₁, run₁, inv₁, left₁⟩ := freeAll_inv inv nodup live
  obtain ⟨s₂, segs₂, run₂, inv₂, left₂⟩ := freeAll_inv inv (perm.nodup_iff.mp nodup)
    (fun p member => live p (perm.mem_iff.mpr member))
  refine ⟨s₁, s₂, run₁, run₂, blockList_unique inv₁ inv₂ ?_⟩
  rw [left₁, left₂]
  exact List.filter_congr (fun t _ => by simp [perm.mem_iff])

/-- Releasing a grant leaves the blocks in use as they were before it. -/
theorem release_grant (inv : Inv site c segs) {r : Nat}
    (found : allocate blockSize 16 r segs = some (g, out)) :
    allocated (release blockSize g.start out) = allocated segs := by
  obtain ⟨left, right, before, after⟩ := allocate_allocated found
  have ordered : (allocated out).Pairwise (fun s t => s.start < t.start) := by
    refine ((allocate_tiles found inv.heap.tiles).pairwise.imp (fun {s t} below => ?_)).filter _
    simp only [Segment.stop, blockSize] at below
    omega
  rw [after] at ordered
  have split := List.pairwise_append.mp ordered
  have below : ∀ s ∈ left, s.start ≠ g.start := fun s member =>
    Nat.ne_of_lt (split.2.2 s member g List.mem_cons_self)
  have above : ∀ s ∈ right, s.start ≠ g.start := fun s member =>
    Nat.ne_of_gt ((List.pairwise_cons.mp split.2.1).1 s member)
  rw [release_allocated, after, before, List.filter_append, List.filter_cons_of_neg (by simp),
    List.filter_eq_self.mpr (fun s member => by simpa using below s member),
    List.filter_eq_self.mpr (fun s member => by simpa using above s member)]

theorem malloc_free_restores (inv : Inv site c segs) {n p : Nat} {st : State}
    (run : malloc site c.state n = some (st, p)) (nonnull : p ≠ null) :
    ∃ st', free st p = some st' ∧ blockList site st' = blockList site c.state := by
  by_cases refused : n = 0 ∨ allocate blockSize 16 (align16 n) segs = none
  · obtain ⟨st', run', -⟩ := inv.malloc_null refused
    rw [run] at run'
    cases run'
    exact absurd rfl nonnull
  · obtain ⟨nonzero, some_found⟩ := not_or.mp refused
    obtain ⟨⟨g, out⟩, found⟩ := Option.ne_none_iff_exists'.mp some_found
    obtain ⟨st', run', inv'⟩ := inv.malloc_some nonzero found
    rw [run] at run'
    cases run'
    obtain ⟨s, -, -, same, st'', freed, inv''⟩ := inv'.free_live List.mem_cons_self
    refine ⟨st'', freed, blockList_unique inv'' inv ?_⟩
    rw [← Nat.add_right_cancel same]
    exact release_grant inv found

theorem diff_self (live : List Nat) : live.diff live = [] := by
  induction live with
  | nil => rfl
  | cons p rest ih => rw [List.diff_cons, List.erase_cons_head, ih]

theorem no_live_initial (inv : Inv site c segs) (none_live : c.live = []) :
    blockList site c.state = [initialBlock site] := by
  have empty : allocated segs = [] := by
    have perm := inv.live
    rw [none_live] at perm
    exact List.map_eq_nil_iff.mp perm.nil_eq.symm
  have fresh : HeapAt site ⟨c.state.memory, false, null, 0⟩ [initialSegment site] := heapAt_fresh rfl
  have single := tiling_unique blockSize_pos inv.heap.tiles fresh.tiles inv.separated
    (List.isChain_singleton _) (by rw [empty]; rfl)
  rw [blockList_eq inv.heap, single]
  rfl

/-- The canonical heap, and what it gives for the calls on one heap. -/
theorem canonical_heap (site : Site) :
    (∀ c d : Client, Reachable (clients site) c → Reachable (clients site) d →
      (∀ s, s ∈ allocatedBlocks site c.state ↔ s ∈ allocatedBlocks site d.state) →
      blockList site c.state = blockList site d.state) ∧
    (∀ c : Client, Reachable (clients site) c → ∀ ps qs : List Nat, ps.Perm qs → ps.Nodup →
      (∀ p ∈ ps, p ∈ c.live) →
      ∃ s₁ s₂, freeAll c.state ps = some s₁ ∧ freeAll c.state qs = some s₂ ∧
        blockList site s₁ = blockList site s₂) ∧
    (∀ c : Client, Reachable (clients site) c → ∀ (n p : Nat) (st : State),
      malloc site c.state n = some (st, p) → p ≠ null →
      ∃ st', free st p = some st' ∧ blockList site st' = blockList site c.state) ∧
    (∀ c : Client, Reachable (clients site) c → ∀ ps : List Nat, ps.Perm c.live →
      ∃ st, freeAll c.state ps = some st ∧ blockList site st = [initialBlock site]) := by
  refine ⟨fun c d reach_c reach_d same => ?_, fun c reach ps qs perm nodup live => ?_,
    fun c reach n p st run nonnull => ?_, fun c reach ps perm => ?_⟩
  · obtain ⟨segs, left⟩ := reachable_inv reach_c
    obtain ⟨other, right⟩ := reachable_inv reach_d
    rw [allocatedBlocks_eq left.heap, allocatedBlocks_eq right.heap] at same
    exact blockList_unique left right (allocated_of_mem_iff left right same)
  · obtain ⟨segs, inv⟩ := reachable_inv reach
    exact freeAll_perm inv perm nodup live
  · obtain ⟨segs, inv⟩ := reachable_inv reach
    exact malloc_free_restores inv run nonnull
  · obtain ⟨segs, inv⟩ := reachable_inv reach
    obtain ⟨st, segs', run, inv', -⟩ := freeAll_inv inv (perm.nodup_iff.mpr inv.live_nodup)
      (fun p member => perm.mem_iff.mp member)
    refine ⟨st, run, no_live_initial inv' ?_⟩
    exact (perm.diff_left c.live).trans (diff_self c.live)

/-- Two runs of different lengths end with the one block of 208 bytes in use, and
the two blocks of a heap are freed in both orders. -/
theorem canonical_heap_two_runs :
    (∃ c d, exampleStart.steps exampleSite [.malloc 100, .malloc 200, .free 4120] = some c ∧
      exampleStart.steps exampleSite
        [.malloc 100, .malloc 200, .malloc 50, .free 4120, .free 4488] = some d ∧
      allocatedBlocks exampleSite c.state = [⟨4232, 208, false⟩] ∧
      blockList exampleSite c.state = blockList exampleSite d.state) ∧
    ∃ c s₁ s₂, exampleStart.steps exampleSite [.malloc 100, .malloc 200] = some c ∧
      freeAll c.state [4120, 4256] = some s₁ ∧ freeAll c.state [4256, 4120] = some s₂ ∧
      blockList exampleSite s₁ = blockList exampleSite s₂ ∧
      blockList exampleSite s₁ = [⟨4096, 4194280, 1, 0⟩] := by
  obtain ⟨sameHeap, anyOrder, -, allFreed⟩ := canonical_heap exampleSite
  constructor
  · obtain ⟨c, run, reach, -, inv⟩ := example_hole
    obtain ⟨d, run', reach', live', inv'⟩ := example_two
    obtain ⟨st, third, inv'⟩ := inv'.step_granted (n := 50) ⟨4464, 64, false⟩
      [⟨4096, 112, false⟩, ⟨4232, 208, false⟩, ⟨4464, 64, false⟩, ⟨4552, 4193824, true⟩]
      (by decide) (by decide)
    have reach' := reach'.next (.malloc 50) trivial third
    have run' := (Client.steps_snoc run' _).trans third
    have first : 4120 ∈ (4464 + blockSize) :: d.live := by simp [live']
    obtain ⟨st, freed, inv'⟩ := inv'.step_freed first
    have reach' := reach'.next (.free 4120) (.inr first) freed
    have run' := (Client.steps_snoc run' _).trans freed
    have last : 4488 ∈ ((4464 + blockSize) :: d.live).erase 4120 := by rw [live']; decide
    obtain ⟨st, freed, inv'⟩ := inv'.step_freed last
    have reach' := reach'.next (.free 4488) (.inr last) freed
    have run' := (Client.steps_snoc run' _).trans freed
    have used : allocatedBlocks exampleSite c.state = [⟨4232, 208, false⟩] :=
      allocatedBlocks_eq inv.heap
    have used' : allocatedBlocks exampleSite st = [⟨4232, 208, false⟩] :=
      allocatedBlocks_eq inv'.heap
    refine ⟨c, _, run, run', used, sameHeap c _ reach reach' (fun s => ?_)⟩
    rw [used, used']
  · obtain ⟨c, run, reach, live, -⟩ := example_two
    have both : [4120, 4256].Perm c.live := by
      rw [live]
      exact List.Perm.swap _ _ _
    obtain ⟨s₁, s₂, up, down, same⟩ := anyOrder c reach [4120, 4256] [4256, 4120]
      (List.Perm.swap _ _ _) (by decide) (fun p member => both.mem_iff.mp member)
    obtain ⟨st, freed, single⟩ := allFreed c reach [4120, 4256] both
    rw [up] at freed
    cases freed
    exact ⟨c, s₁, s₂, run, up, down, same, single⟩

end AxiomeToolchain.Guarantees.HeapCanonical
