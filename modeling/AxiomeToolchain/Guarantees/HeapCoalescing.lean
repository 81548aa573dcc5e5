import AxiomeToolchain.Source.HeapRuns

/-!
# merge_free_blocks replaces each run of free blocks by one block

From any memory whose list tiles the heap, reachable or not. `stretches` cuts
the list into the blocks in use and the longest runs of free blocks, and
`Stretch.merged` is the block that takes the place of a run.
-/

set_option autoImplicit false

namespace AxiomeToolchain.Guarantees.HeapCoalescing
open AxiomeToolchain.Library.ByteMemory
open AxiomeToolchain.Library.Tiling
open AxiomeToolchain.Source.Heap

/-- The blocks that the pass leaves. -/
def collapsed (segs : List Segment) : List Segment := (stretches segs).map (Stretch.merged blockSize)

theorem collapsed_eq (segs : List Segment) : coalesce blockSize segs = collapsed segs :=
  coalesce_stretches blockSize segs

/-- For every list that tiles the heap: the pass ends, each longest run of free
blocks has become one block with the bytes of all of them, the blocks in use
stand as before, the list tiles the heap, no byte outside the old headers has
changed, and a second pass leaves everything as it is. -/
theorem merge_collapses (site : Site) (st : State) (segs : List Segment)
    (rep : Represents site st.memory st.freeList segs) :
    ∃ m', mergeFreeBlocks st = some { st with memory := m' } ∧
      Represents site m' st.freeList (collapsed segs) ∧
      (stretches segs).flatMap Stretch.segments = segs ∧ Maximal (stretches segs) ∧
      allocated (collapsed segs) = allocated segs ∧
      (∀ x, OffHeaders segs x → m' x = st.memory x) ∧
      mergeFreeBlocks { st with memory := m' } = some { st with memory := m' } := by
  obtain ⟨m', run, rep', frame⟩ := mergeFreeBlocks_represents st rep
  have separated := coalesce_separated blockSize segs
  have kept := coalesce_allocated blockSize segs
  rw [collapsed_eq] at rep' separated kept
  exact ⟨m', run, rep', stretches_flatten segs, stretches_maximal segs, kept, frame,
    mergeFreeBlocks_separated { st with memory := m' } rep' separated⟩

def writeHeader (m : Memory) (b size free next : Nat) : Memory :=
  writeNext (writeFree (writeSize m b size) b free) b next

/-- Two free blocks, one in use and a free one behind. -/
def exampleState : State :=
  let m := writeHeader (fun _ => 0) 4096 16 1 4136
  let m := writeHeader m 4136 16 1 4176
  let m := writeHeader m 4176 16 0 4216
  ⟨writeHeader m 4216 4194160 1 null, true, 4096, 0⟩

def exampleSegments : List Segment :=
  [⟨4096, 16, true⟩, ⟨4136, 16, true⟩, ⟨4176, 16, false⟩, ⟨4216, 4194160, true⟩]

theorem example_represents :
    Represents exampleSite exampleState.memory exampleState.freeList exampleSegments := by
  constructor
  · simp only [exampleSegments, Linked]
    decide
  · exact ⟨rfl, rfl, rfl, rfl, rfl⟩

theorem merge_collapses_example :
    ∃ m', mergeFreeBlocks exampleState = some { exampleState with memory := m' } ∧
      Represents exampleSite m' 4096
        [⟨4096, 56, true⟩, ⟨4176, 16, false⟩, ⟨4216, 4194160, true⟩] := by
  obtain ⟨m', run, rep, -⟩ :=
    merge_collapses exampleSite exampleState exampleSegments example_represents
  have collapses : collapsed exampleSegments =
      [⟨4096, 56, true⟩, ⟨4176, 16, false⟩, ⟨4216, 4194160, true⟩] := by decide
  rw [collapses] at rep
  exact ⟨m', run, rep⟩

end AxiomeToolchain.Guarantees.HeapCoalescing
