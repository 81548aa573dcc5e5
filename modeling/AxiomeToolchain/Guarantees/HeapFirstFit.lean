import AxiomeToolchain.Source.HeapRuns

/-!
# malloc is first fit over the gaps between live blocks

The abstract allocator knows only the blocks in use: it looks for the lowest
gap with room for a header and the rounded request, and takes the whole gap
when less than a header and 16 bytes would be left over. In every reachable
state malloc does just that, so a request fails only when no gap is large
enough.
-/

set_option autoImplicit false

namespace AxiomeToolchain.Guarantees.HeapFirstFit
open AxiomeToolchain.Library.CInt
open AxiomeToolchain.Library.Tiling
open AxiomeToolchain.Library.FirstFit
open AxiomeToolchain.Library.Runs
open AxiomeToolchain.Source.Heap

/-- The gaps of the heap array around the blocks in use, in address order. -/
def heapGaps (site : Site) (used : List Segment) : List Gap :=
  gaps blockSize site.base used (site.base + heapSize)

/-- `n` rounded up to a multiple of 16. -/
def roundUp16 (n : Nat) : Nat := (n + 15) / 16 * 16

variable {site : Site} {c : Client} {n : Nat} {gap : Gap} {g : Segment} {segs out : List Segment}

theorem heapGaps_sorted (inv : Inv site c segs) :
    (heapGaps site (allocated segs)).Pairwise (fun a b => a.start < b.start) :=
  (gaps_sorted blockSize_pos (inv.heap.tiles.pairwise.filter _)
    (fun _ member => (inv.heap.tiles.bounds (mem_allocated.mp member).1).1)).1

/-- The grant of the header walk and the gap of the abstract allocator agree. -/
theorem allocate_heapGaps (inv : Inv site c segs) (r : Nat) :
    (allocate blockSize 16 r segs).map Prod.fst =
      (firstGap blockSize r (heapGaps site (allocated segs))).map (placed blockSize 16 r) :=
  allocate_gaps blockSize_pos inv.heap.tiles inv.separated

theorem allocate_of_gap (inv : Inv site c segs) {r : Nat}
    (first : firstGap blockSize r (heapGaps site (allocated segs)) = some gap) :
    ∃ out, allocate blockSize 16 r segs = some (placed blockSize 16 r gap, out) := by
  have agree := allocate_heapGaps inv r
  rw [first, Option.map_some, Option.map_eq_some_iff] at agree
  obtain ⟨⟨g, out⟩, found, rfl⟩ := agree
  exact ⟨out, found⟩

theorem allocate_of_no_gap (inv : Inv site c segs) {r : Nat}
    (none_large : ∀ gap ∈ heapGaps site (allocated segs), gap.size < r + blockSize) :
    allocate blockSize 16 r segs = none := by
  have agree := allocate_heapGaps inv r
  have first : firstGap blockSize r (heapGaps site (allocated segs)) = none :=
    List.find?_eq_none.mpr (fun gap member => by simpa using none_large gap member)
  rw [first, Option.map_none, Option.map_eq_none_iff] at agree
  exact agree

/-- Some gap is large enough, so there is a first one. -/
theorem firstGap_of_mem {r : Nat} {all : List Gap} (member : gap ∈ all)
    (large : r + blockSize ≤ gap.size) : ∃ found, firstGap blockSize r all = some found :=
  Option.isSome_iff_exists.mp (List.find?_isSome.mpr ⟨gap, member, by simpa using large⟩)

/-- malloc and the abstract first-fit allocator over the blocks in use agree. -/
theorem malloc_first_fit (site : Site) (c : Client) (reach : Reachable (clients site) c) (n : Nat)
    (low : 1 ≤ n) (high : n ≤ 2 ^ 64 - 16) :
    ∃ st p, malloc site c.state n = some (st, p) ∧
      (p ≠ null ↔ ∃ gap ∈ heapGaps site (allocatedBlocks site c.state),
        roundUp16 n + 24 ≤ gap.size) ∧
      (∀ gap ∈ heapGaps site (allocatedBlocks site c.state), roundUp16 n + 24 ≤ gap.size →
        (∀ other ∈ heapGaps site (allocatedBlocks site c.state),
          roundUp16 n + 24 ≤ other.size → gap.start ≤ other.start) →
        p = gap.start + 24 ∧
          (allocatedBlocks site st).Perm
            (⟨gap.start, if roundUp16 n + 64 ≤ gap.size then roundUp16 n else gap.size - 24, false⟩ ::
              allocatedBlocks site c.state)) ∧
      ((∀ gap ∈ heapGaps site (allocatedBlocks site c.state), gap.size < roundUp16 n + 24) →
        p = null ∧ st.errno = enomem ∧ blockList site st = blockList site c.state) := by
  obtain ⟨segs, inv⟩ := reachable_inv reach
  have rounded : align16 n = roundUp16 n := align16_eq (by unfold wordModulus; omega)
  have nonzero : n ≠ 0 := by omega
  rw [allocatedBlocks_eq inv.heap]
  by_cases room : ∃ gap ∈ heapGaps site (allocated segs), roundUp16 n + 24 ≤ gap.size
  · obtain ⟨first, chosen⟩ : ∃ first,
        firstGap blockSize (roundUp16 n) (heapGaps site (allocated segs)) = some first := by
      obtain ⟨gap, member, large⟩ := room
      exact firstGap_of_mem member large
    obtain ⟨out, found⟩ := allocate_of_gap inv chosen
    rw [← rounded] at found
    obtain ⟨st, run, inv'⟩ := inv.malloc_some nonzero found
    refine ⟨st, _, run, iff_of_true (inv'.pointer_ne_null List.mem_cons_self) room, ?_, ?_⟩
    · intro gap member large lowest
      have same : first = gap := Option.some.inj (chosen.symm.trans
        (firstGap_lowest (heapGaps_sorted inv) member large lowest))
      subst same
      refine ⟨rfl, ?_⟩
      obtain ⟨left, right, before, after⟩ := allocate_allocated found
      rw [allocatedBlocks_eq inv'.heap, after, before]
      refine List.perm_middle.trans (List.Perm.of_eq ?_)
      rw [rounded]
      rfl
    · rintro small
      obtain ⟨gap, member, large⟩ := room
      exact absurd large (Nat.not_le.mpr (small gap member))
  · have small : ∀ gap ∈ heapGaps site (allocated segs), gap.size < roundUp16 n + 24 :=
      fun gap member => Nat.lt_of_not_le (fun large => room ⟨gap, member, large⟩)
    have none_found := allocate_of_no_gap inv (r := roundUp16 n) small
    rw [← rounded] at none_found
    have run := malloc_refused inv.heap nonzero none_found
    refine ⟨_, null, run, iff_of_false (fun different => different rfl) room, ?_, ?_⟩
    · intro gap member large
      exact absurd ⟨gap, member, large⟩ room
    · intro _
      refine ⟨rfl, rfl, ?_⟩
      rw [blockList_eq inv.heap]
      exact blockList_eq (heapAt_mk (initHeap_heapInit site c.state) inv.heap)

/-- With a hole of 136 bytes below a live block, malloc(50) is served from the
hole and malloc(150) from behind the block. -/
theorem malloc_first_fit_hole : ∃ c st st',
    exampleStart.steps exampleSite [.malloc 100, .malloc 200, .free 4120] = some c ∧
      malloc exampleSite c.state 50 = some (st, 4120) ∧
      (allocatedBlocks exampleSite st).Perm [⟨4096, 64, false⟩, ⟨4232, 208, false⟩] ∧
      malloc exampleSite c.state 150 = some (st', 4488) ∧
      (allocatedBlocks exampleSite st').Perm [⟨4464, 160, false⟩, ⟨4232, 208, false⟩] := by
  obtain ⟨c, steps, reach, -, inv⟩ := example_hole
  have used : allocatedBlocks exampleSite c.state = [⟨4232, 208, false⟩] :=
    allocatedBlocks_eq inv.heap
  obtain ⟨st, p, run, -, lowest, -⟩ := malloc_first_fit exampleSite c reach 50 (by decide) (by decide)
  obtain ⟨st', p', run', -, lowest', -⟩ :=
    malloc_first_fit exampleSite c reach 150 (by decide) (by decide)
  rw [used] at lowest lowest'
  obtain ⟨rfl, placed⟩ := lowest ⟨4096, 136⟩ (by decide) (by decide) (by decide)
  obtain ⟨rfl, placed'⟩ := lowest' ⟨4464, 4193936⟩ (by decide) (by decide) (by decide)
  exact ⟨c, st, st', steps, run, placed, run', placed'⟩

end AxiomeToolchain.Guarantees.HeapFirstFit
