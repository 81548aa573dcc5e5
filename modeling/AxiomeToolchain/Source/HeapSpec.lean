import AxiomeToolchain.Source.HeapLayout

/-!
# What malloc and free do to the block list

`HeapAt site st segs` says that the heap of `st`, initialised if no call has
done so yet, is the list `segs`. malloc is first fit with a slack of 16 bytes
over that list, free is `release`; both keep every byte outside the block taken
or the headers.
-/

set_option autoImplicit false

namespace AxiomeToolchain.Source.Heap
open AxiomeToolchain.Library.ByteMemory
open AxiomeToolchain.Library.CInt
open AxiomeToolchain.Library.Tiling
open AxiomeToolchain.Library.FirstFit

variable {site : Site} {st : State} {n p : Nat} {s g : Segment} {segs out rest : List Segment}

def HeapAt (site : Site) (st : State) (segs : List Segment) : Prop :=
  Represents site (initHeap site st).memory (initHeap site st).freeList segs

/-- The single free block init_heap makes. -/
def initialSegment (site : Site) : Segment := ⟨site.base, heapSize - blockSize, true⟩

@[simp] theorem initHeap_heapInit (site : Site) (st : State) :
    (initHeap site st).heapInit = true := by
  unfold initHeap
  split
  · assumption
  · rfl

theorem initHeap_of_init (ready : st.heapInit = true) : initHeap site st = st := by
  simp [initHeap, ready]

theorem heapAt_of_init (ready : st.heapInit = true) :
    HeapAt site st segs ↔ Represents site st.memory st.freeList segs := by
  rw [HeapAt, initHeap_of_init ready]

theorem heapAt_mk (ready : st.heapInit = true)
    (rep : Represents site st.memory st.freeList segs) : HeapAt site st segs :=
  (heapAt_of_init ready).mpr rep

theorem heapAt_fresh (fresh : st.heapInit = false) : HeapAt site st [initialSegment site] := by
  have pos := site.base_pos
  simp only [HeapAt, initHeap, fresh, Bool.false_eq_true, if_false]
  refine ⟨⟨rfl, ?_, ?_, ?_⟩, rfl, ?_⟩
  · rw [readSize_writeNext, readSize_writeFree, readSize_writeSize]
    exact Nat.mod_eq_of_lt (by unfold heapSize wordModulus; omega)
  · simp [initialSegment]
  · rw [readNext_writeNext]
    exact Nat.zero_mod wordModulus
  · have whole : blockSize ≤ heapSize := by decide
    rw [tiles_nil]
    simp only [initialSegment, Segment.stop]
    omega

theorem malloc_zero (site : Site) (st : State) : malloc site st 0 = some (st, null) := rfl

theorem malloc_refused (heap : HeapAt site st segs) (nonzero : n ≠ 0)
    (full : allocate blockSize 16 (align16 n) segs = none) :
    malloc site st n = some ({ initHeap site st with errno := enomem }, null) := by
  have nonnull : ∀ s ∈ segs, 0 < s.start := fun s member =>
    (tiles_in_range (Nat.le_refl site.base) (Nat.le_refl _) heap.tiles member).1
  have search := findFit_linked (align16 n) heap.linked nonnull walkBudget heap.length_lt
  rw [full] at search
  simp only [malloc, if_neg nonzero, search, Option.elim_none, Option.map_some, if_pos]

theorem malloc_granted (heap : HeapAt site st segs) (nonzero : n ≠ 0)
    (found : allocate blockSize 16 (align16 n) segs = some (g, out)) :
    ∃ m', malloc site st n =
        some ({ initHeap site st with memory := m' }, g.start + blockSize) ∧
      Represents site m' (initHeap site st).freeList out ∧
      ∃ s ∈ segs, s.free = true ∧ s.start = g.start ∧
        ∀ x, x < s.start ∨ s.stop blockSize ≤ x → m' x = (initHeap site st).memory x := by
  have nonnull : ∀ s ∈ segs, 0 < s.start := fun s member =>
    (tiles_in_range (Nat.le_refl site.base) (Nat.le_refl _) heap.tiles member).1
  have search := findFit_linked (align16 n) heap.linked nonnull walkBudget heap.length_lt
  rw [found] at search
  obtain ⟨rep, s, member, isFree, same, frame⟩ := take_represents heap found
  have start_pos : g.start ≠ null := by
    have := nonnull s member
    unfold null
    omega
  refine ⟨_, ?_, rep, s, member, isFree, same, frame⟩
  simp only [malloc, if_neg nonzero, search, Option.elim_some, Option.map_some, if_neg start_pos]

theorem free_null (st : State) : free st null = some st := rfl

/-- Setting the flag of one block of the list. -/
theorem mark_linked {m : Memory} {q lo hi : Nat} (linked : Linked m q segs null)
    (tiles : Tiles blockSize lo segs hi) (member : s ∈ segs) :
    Linked (writeFree m s.start 1) q (mark s.start segs) null := by
  induction segs generalizing q lo with
  | nil => simp at member
  | cons t rest ih =>
    obtain ⟨rfl, held, freeness, tail⟩ := linked
    rw [mark_cons]
    by_cases here : t.start = s.start
    · have above : ∀ u ∈ rest, t.stop blockSize ≤ u.start := fun u later =>
        (tiles.2.bounds later).1
      have unmarked : mark s.start rest = rest := by
        refine List.map_congr_left (fun u later => ?_) |>.trans (List.map_id rest)
        have := above u later
        have header := blockSize_pos
        simp only [Segment.stop] at this
        rw [if_neg (by omega)]
        rfl
      rw [if_pos here, unmarked, here]
      refine ⟨rfl, ?_, ?_, ?_⟩
      · rw [readSize_writeFree, ← here]
        exact held
      · simp
      · rw [readNext_writeFree, ← here]
        apply tail.congr
        intro u later x low _
        have := above u later
        simp only [Segment.stop] at this
        exact writeFree_frame _ _ _ _ (by omega)
    · have later : s ∈ rest := by
        rcases List.mem_cons.mp member with rfl | later
        · exact absurd rfl here
        · exact later
      have bound := (tiles.2.bounds later).1
      simp only [Segment.stop] at bound
      have kept := blockAt_fields (blockAt_writeFree_apart (m := m) (b := s.start) (c := t.start) 1
        (.inl (by omega)))
      rw [if_neg here]
      refine ⟨rfl, kept.1.trans held, kept.2.1.trans freeness, ?_⟩
      rw [kept.2.2]
      exact ih tail tiles.2 later

theorem free_spec (ready : st.heapInit = true) (heap : HeapAt site st segs) (member : s ∈ segs) :
    ∃ m', free st (s.start + blockSize) = some { st with memory := m' } ∧
      Represents site m' st.freeList (release blockSize s.start segs) ∧
      ∀ x, OffHeaders segs x → m' x = st.memory x := by
  have rep := (heapAt_of_init ready).mp heap
  have marked : Represents site (writeFree st.memory s.start 1) st.freeList (mark s.start segs) :=
    ⟨mark_linked rep.linked rep.tiles member, mark_tiles rep.tiles⟩
  obtain ⟨m', run, rep', frame⟩ := mergeFreeBlocks_represents
    { st with memory := writeFree st.memory s.start 1 } marked
  refine ⟨m', ?_, rep', fun x off => ?_⟩
  · have nonnull : ¬ s.start + blockSize = null := by unfold null blockSize; omega
    rw [free, if_neg nonnull, Nat.add_sub_cancel]
    exact run
  · have off' : OffHeaders (mark s.start segs) x := by
      intro t marked_member
      obtain ⟨u, original, rfl⟩ := List.mem_map.mp marked_member
      have same : (if u.start = s.start then { u with free := true } else u).start = u.start := by
        split <;> rfl
      rw [same]
      exact off u original
    exact (frame x off').trans (writeFree_frame _ _ _ _ (off s member))

/-! ## The list as the program reads it -/

/-- The headers that memory holds for `segs`. -/
def rawBlocks : List Segment → List Block
  | [] => []
  | s :: rest =>
    ⟨s.start, s.size, flag s.free, (rest.head?.map Segment.start).getD null⟩ :: rawBlocks rest

theorem linked_rawBlocks {m : Memory} {q : Nat} (linked : Linked m q segs null) :
    segs.map (fun s => blockAt m s.start) = rawBlocks segs := by
  induction segs generalizing q with
  | nil => rfl
  | cons s rest ih =>
    obtain ⟨rfl, held, freeness, tail⟩ := linked
    have next : readNext m s.start = (rest.head?.map Segment.start).getD null := by
      cases rest with
      | nil => exact tail
      | cons t rest => exact tail.1
    rw [List.map_cons, ih tail, rawBlocks, blockAt, held, freeness, next]

/-- The block list is a function of the abstract list alone. -/
theorem blockList_eq (heap : HeapAt site st segs) : blockList site st = rawBlocks segs := by
  have nonnull : ∀ s ∈ segs, 0 < s.start := fun s member =>
    (tiles_in_range (Nat.le_refl site.base) (Nat.le_refl _) heap.tiles member).1
  rw [blockList, walk_linked heap.linked nonnull walkBudget heap.length_lt,
    linked_rawBlocks heap.linked]

theorem mem_rawBlocks {b : Block} (member : b ∈ rawBlocks segs) :
    ∃ s ∈ segs, b.addr = s.start ∧ b.size = s.size ∧ b.free = flag s.free := by
  induction segs with
  | nil => simp [rawBlocks] at member
  | cons s rest ih =>
    rcases List.mem_cons.mp member with rfl | later
    · exact ⟨s, List.mem_cons_self, rfl, rfl, rfl⟩
    · obtain ⟨t, in_rest, same⟩ := ih later
      exact ⟨t, List.mem_cons_of_mem s in_rest, same⟩

theorem rawBlocks_of_mem (member : s ∈ segs) :
    ∃ b ∈ rawBlocks segs, b.addr = s.start ∧ b.size = s.size ∧ b.free = flag s.free := by
  induction segs with
  | nil => simp at member
  | cons t rest ih =>
    rcases List.mem_cons.mp member with rfl | later
    · exact ⟨_, List.mem_cons_self, rfl, rfl, rfl⟩
    · obtain ⟨b, in_rest, same⟩ := ih later
      exact ⟨b, List.mem_cons_of_mem _ in_rest, same⟩

/-- The blocks with free = 0 by address and size. -/
def allocatedBlocks (site : Site) (st : State) : List Segment :=
  ((blockList site st).filter (fun b => b.free = 0)).map (fun b => ⟨b.addr, b.size, false⟩)

theorem rawBlocks_allocated (segs : List Segment) :
    ((rawBlocks segs).filter (fun b => b.free = 0)).map (fun b => Segment.mk b.addr b.size false) =
      allocated segs := by
  induction segs with
  | nil => rfl
  | cons s rest ih =>
    cases used : s.free with
    | true =>
      rw [rawBlocks, List.filter_cons_of_neg (by simp [used]), ih, allocated_cons_free used]
    | false =>
      rw [rawBlocks, List.filter_cons_of_pos (by simp [used]), List.map_cons, ih,
        allocated_cons_used used, ← used]

theorem allocatedBlocks_eq (heap : HeapAt site st segs) :
    allocatedBlocks site st = allocated segs := by
  rw [allocatedBlocks, blockList_eq heap, rawBlocks_allocated]

/-! ## Rounding -/

theorem and_not_fifteen (y : Nat) (fits : y < wordModulus) :
    y &&& (wordModulus - 1 - 15) = y / 16 * 16 := by
  have split : wordModulus - 1 - 15 = 2 ^ 4 * (2 ^ 60 - 1) := by decide
  apply Nat.eq_of_testBit_eq
  intro i
  rw [Nat.testBit_and, split, Nat.testBit_two_pow_mul, show y / 16 * 16 = 2 ^ 4 * (y / 2 ^ 4) by omega,
    Nat.testBit_two_pow_mul, Nat.testBit_div_two_pow, Nat.testBit_two_pow_sub_one]
  by_cases low : 4 ≤ i
  · by_cases high : i - 4 < 60
    · simp [low, high, Nat.sub_add_cancel low]
    · have zero : y.testBit i = false :=
        Nat.testBit_lt_two_pow (Nat.lt_of_lt_of_le fits (Nat.pow_le_pow_right (by decide) (by omega)))
      simp [low, high, zero, Nat.sub_add_cancel low]
  · simp [low]

/-- ALIGN16 rounds up to a multiple of 16 as long as the sum does not wrap. -/
theorem align16_eq (small : n + 15 < wordModulus) : align16 n = (n + 15) / 16 * 16 := by
  rw [align16, u64Add_of_lt small, and_not_fifteen _ small]

theorem align16_ge (small : n + 15 < wordModulus) : n ≤ align16 n := by
  rw [align16_eq small]
  omega

/-- From 2^64 - 15 on the sum wraps to less than 15, and ALIGN16 gives 0. -/
theorem align16_wraps (large : wordModulus ≤ n + 15) (fits : n < wordModulus) : align16 n = 0 := by
  have wide : 15 < wordModulus := by decide
  have low : (n + 15) % wordModulus = n + 15 - wordModulus := by
    rw [Nat.mod_eq_sub_mod large, Nat.mod_eq_of_lt (by omega)]
  have small : (n + 15) % wordModulus < 16 := by omega
  rw [align16, u64Add, and_not_fifteen _ (Nat.mod_lt _ (by decide)), Nat.div_eq_of_lt small]

end AxiomeToolchain.Source.Heap
