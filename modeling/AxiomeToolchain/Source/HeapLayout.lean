import AxiomeToolchain.Library.FirstFit
import AxiomeToolchain.Source.Heap

/-!
# The block list in memory

`Linked m p segs q`: following `next` from `p`, memory holds the headers of
`segs` and then the pointer `q`. Each function of the allocator is related to
the list edit it performs, together with the bytes it may change. The later
results only use these lemmas, never the bodies of the functions.
-/

set_option autoImplicit false

namespace AxiomeToolchain.Source.Heap
open AxiomeToolchain.Library.ByteMemory
open AxiomeToolchain.Library.CInt
open AxiomeToolchain.Library.Tiling
open AxiomeToolchain.Library.FirstFit

/-- The value init_heap, split_block, malloc and free store in `free`. -/
def flag (free : Bool) : Nat := if free then 1 else 0

@[simp] theorem flag_true : flag true = 1 := rfl
@[simp] theorem flag_false : flag false = 0 := rfl

theorem flag_ne_zero {b : Bool} : flag b ≠ 0 ↔ b = true := by
  cases b <;> simp [flag]

theorem blockSize_pos : 0 < blockSize := by decide

/-! Reads of one header after a write to a field of it. -/

section Fields
variable (m : Memory) (b v : Nat)

@[simp] theorem readSize_writeSize : readSize (writeSize m b v) b = v % wordModulus :=
  readLE_writeLE_same 8 m b v

@[simp] theorem readFree_writeSize : readFree (writeSize m b v) b = readFree m b :=
  readLE_writeLE_apart m b v 8 (b + 8) 4 (by omega)

@[simp] theorem readNext_writeSize : readNext (writeSize m b v) b = readNext m b :=
  readLE_writeLE_apart m b v 8 (b + 16) 8 (by omega)

@[simp] theorem readSize_writeFree : readSize (writeFree m b v) b = readSize m b :=
  readLE_writeLE_apart m (b + 8) v 4 b 8 (by omega)

@[simp] theorem readFree_writeFree : readFree (writeFree m b v) b = v % 2 ^ 32 :=
  readLE_writeLE_same 4 m (b + 8) v

@[simp] theorem readNext_writeFree : readNext (writeFree m b v) b = readNext m b :=
  readLE_writeLE_apart m (b + 8) v 4 (b + 16) 8 (by omega)

@[simp] theorem readSize_writeNext : readSize (writeNext m b v) b = readSize m b :=
  readLE_writeLE_apart m (b + 16) v 8 b 8 (by omega)

@[simp] theorem readFree_writeNext : readFree (writeNext m b v) b = readFree m b :=
  readLE_writeLE_apart m (b + 16) v 8 (b + 8) 4 (by omega)

@[simp] theorem readNext_writeNext : readNext (writeNext m b v) b = v % wordModulus :=
  readLE_writeLE_same 8 m (b + 16) v

end Fields

/-- Every field write stays inside its header. -/
theorem writeSize_frame (m : Memory) (b v x : Nat) (outside : x < b ∨ b + blockSize ≤ x) :
    writeSize m b v x = m x :=
  writeLE_frame 8 m b v x (by unfold blockSize at outside; omega)

theorem writeFree_frame (m : Memory) (b v x : Nat) (outside : x < b ∨ b + blockSize ≤ x) :
    writeFree m b v x = m x :=
  writeLE_frame 4 m (b + 8) v x (by unfold blockSize at outside; omega)

theorem writeNext_frame (m : Memory) (b v x : Nat) (outside : x < b ∨ b + blockSize ≤ x) :
    writeNext m b v x = m x :=
  writeLE_frame 8 m (b + 16) v x (by unfold blockSize at outside; omega)

/-- The three fields are read from the 24 bytes of the header alone. -/
theorem blockAt_congr {m m' : Memory} {b : Nat}
    (same : ∀ x, b ≤ x → x < b + blockSize → m' x = m x) : blockAt m' b = blockAt m b := by
  unfold blockSize at same
  have size : readSize m' b = readSize m b :=
    readLE_congr 8 b (fun x low high => same x low (by omega))
  have free : readFree m' b = readFree m b :=
    readLE_congr 4 (b + 8) (fun x low high => same x (by omega) (by omega))
  have next : readNext m' b = readNext m b :=
    readLE_congr 8 (b + 16) (fun x low high => same x (by omega) (by omega))
  simp only [blockAt, size, free, next]

theorem blockAt_fields {m m' : Memory} {b : Nat} (same : blockAt m' b = blockAt m b) :
    readSize m' b = readSize m b ∧ readFree m' b = readFree m b ∧ readNext m' b = readNext m b := by
  simpa only [blockAt, Block.mk.injEq, true_and] using same

/-- Memory holds the headers of `segs` from `p` on, chained by `next` up to `q`. -/
def Linked (m : Memory) : Nat → List Segment → Nat → Prop
  | p, [], q => p = q
  | p, s :: rest, q =>
    p = s.start ∧ readSize m p = s.size ∧ readFree m p = flag s.free ∧
      Linked m (readNext m p) rest q

variable {m m' : Memory} {p q lo hi size : Nat} {s t g : Segment}
  {segs rest before after out : List Segment}

theorem linked_append : Linked m p (before ++ after) q ↔
    ∃ mid, Linked m p before mid ∧ Linked m mid after q := by
  induction before generalizing p with
  | nil => simp [Linked]
  | cons s before ih =>
    simp only [List.cons_append, Linked, ih]
    constructor
    · rintro ⟨at_s, size, free, mid, left, right⟩
      exact ⟨mid, ⟨at_s, size, free, left⟩, right⟩
    · rintro ⟨mid, ⟨at_s, size, free, left⟩, right⟩
      exact ⟨at_s, size, free, mid, left, right⟩

/-- A chain depends on the bytes of its headers only. -/
theorem Linked.congr (linked : Linked m p segs q)
    (same : ∀ s ∈ segs, ∀ x, s.start ≤ x → x < s.start + blockSize → m' x = m x) :
    Linked m' p segs q := by
  induction segs generalizing p with
  | nil => exact linked
  | cons s rest ih =>
    obtain ⟨rfl, size, free, tail⟩ := linked
    obtain ⟨size', free', next'⟩ := blockAt_fields (blockAt_congr (same s List.mem_cons_self))
    refine ⟨rfl, size'.trans size, free'.trans free, ?_⟩
    rw [next']
    exact ih tail (fun t member => same t (List.mem_cons_of_mem s member))

/-- `x` lies in no header of `segs`. -/
def OffHeaders (segs : List Segment) (x : Nat) : Prop :=
  ∀ s ∈ segs, x < s.start ∨ s.start + blockSize ≤ x

theorem OffHeaders.cons : OffHeaders (s :: rest) p ↔
    (p < s.start ∨ s.start + blockSize ≤ p) ∧ OffHeaders rest p := by
  simp [OffHeaders]

/-- The heap: the list tiles the array, ends in NULL, and its first block is free_list. -/
structure Represents (site : Site) (m : Memory) (p : Nat) (segs : List Segment) : Prop where
  linked : Linked m p segs null
  tiles : Tiles blockSize site.base segs (site.base + heapSize)

theorem Represents.ne_nil {site : Site} (rep : Represents site m p segs) : segs ≠ [] := by
  rintro rfl
  have tiles := rep.tiles
  simp only [tiles_nil, heapSize] at tiles
  omega

theorem Represents.head {site : Site} (rep : Represents site m p segs) : p = site.base := by
  cases segs with
  | nil => exact absurd rfl rep.ne_nil
  | cons s rest => exact rep.linked.1.trans rep.tiles.1

theorem Represents.length_lt {site : Site} (rep : Represents site m p segs) :
    segs.length < walkBudget := by
  have size := rep.tiles.length_le
  unfold walkBudget heapSize blockSize at *
  omega

/-- Inside the tiled array no address is NULL and no size or address leaves `size_t`. -/
theorem tiles_in_range {site : Site} (low : site.base ≤ lo) (high : hi ≤ site.base + heapSize)
    (tiles : Tiles blockSize lo segs hi) (member : s ∈ segs) :
    0 < s.start ∧ s.start + blockSize + s.size ≤ wordModulus ∧ s.size < heapSize := by
  have bound := tiles.bounds member
  have pos := site.base_pos
  have fits := site.fits
  simp only [Segment.stop, blockSize] at *
  omega

theorem walk_linked (linked : Linked m p segs null) (nonnull : ∀ s ∈ segs, 0 < s.start)
    (budget : Nat) (enough : segs.length < budget) :
    walk m budget p = segs.map (fun s => blockAt m s.start) := by
  induction segs generalizing p budget with
  | nil =>
    obtain ⟨budget, rfl⟩ := Nat.exists_eq_add_one_of_ne_zero (Nat.ne_of_gt enough)
    simp only [Linked] at linked
    simp [walk, linked]
  | cons s rest ih =>
    obtain ⟨budget, rfl⟩ := Nat.exists_eq_add_one_of_ne_zero (Nat.ne_of_gt (Nat.zero_lt_of_lt enough))
    obtain ⟨rfl, -, -, tail⟩ := linked
    have pos := nonnull s List.mem_cons_self
    simp only [List.length_cons, Nat.add_lt_add_iff_right] at enough
    rw [walk, if_neg (by unfold null; omega), List.map_cons,
      ih tail (fun t member => nonnull t (List.mem_cons_of_mem s member)) budget enough]

/-! ## malloc: the search and the split -/

/-- The loop of malloc stops at the block that first fit takes, at NULL when there is none. -/
theorem findFit_linked (size : Nat) (linked : Linked m p segs null)
    (nonnull : ∀ s ∈ segs, 0 < s.start) (budget : Nat) (enough : segs.length < budget) :
    findFit m size budget p =
      some ((allocate blockSize 16 size segs).elim null (fun found => found.1.start)) := by
  induction segs generalizing p budget with
  | nil =>
    obtain ⟨budget, rfl⟩ := Nat.exists_eq_add_one_of_ne_zero (Nat.ne_of_gt enough)
    simp only [Linked] at linked
    simp [findFit, allocate, linked]
  | cons s rest ih =>
    obtain ⟨budget, rfl⟩ := Nat.exists_eq_add_one_of_ne_zero (Nat.ne_of_gt (Nat.zero_lt_of_lt enough))
    obtain ⟨rfl, held, freeness, tail⟩ := linked
    have pos := nonnull s List.mem_cons_self
    simp only [List.length_cons, Nat.add_lt_add_iff_right] at enough
    have inner := ih tail (fun t member => nonnull t (List.mem_cons_of_mem s member)) budget enough
    rw [findFit, if_neg (by unfold null; omega)]
    simp only [held, freeness, flag_ne_zero, allocate]
    split
    · rfl
    · rw [inner]
      cases allocate blockSize 16 size rest <;> rfl

/-- Two headers that do not overlap. -/
def Apart (b c : Nat) : Prop := c + blockSize ≤ b ∨ b + blockSize ≤ c

theorem blockAt_writeSize_apart {b c : Nat} (v : Nat) (apart : Apart b c) :
    blockAt (writeSize m b v) c = blockAt m c :=
  blockAt_congr (fun x _ _ => writeSize_frame m b v x (by unfold Apart at apart; omega))

theorem blockAt_writeFree_apart {b c : Nat} (v : Nat) (apart : Apart b c) :
    blockAt (writeFree m b v) c = blockAt m c :=
  blockAt_congr (fun x _ _ => writeFree_frame m b v x (by unfold Apart at apart; omega))

theorem blockAt_writeNext_apart {b c : Nat} (v : Nat) (apart : Apart b c) :
    blockAt (writeNext m b v) c = blockAt m c :=
  blockAt_congr (fun x _ _ => writeNext_frame m b v x (by unfold Apart at apart; omega))

theorem readNext_lt (m : Memory) (b : Nat) : readNext m b < wordModulus := readLE_lt m (b + 16) 8

/-- The header left by the three stores that make a block. -/
theorem blockAt_written (m : Memory) (b size free next : Nat) :
    blockAt (writeNext (writeFree (writeSize m b size) b free) b next) b =
      ⟨b, size % wordModulus, free % 2 ^ 32, next % wordModulus⟩ := by
  simp [blockAt]

theorem request_fits (large : size ≤ s.size) (small : s.size < heapSize) :
    u64Add (u64Add size blockSize) 16 = size + blockSize + 16 := by
  unfold heapSize at small
  unfold u64Add blockSize wordModulus
  omega

/-- The block malloc hands out, as memory holds it: split off its rest or taken whole. -/
theorem take_block (held : readSize m s.start = s.size) (large : size ≤ s.size)
    (fits : s.start + blockSize + s.size ≤ wordModulus) (small : s.size < heapSize)
    (next : readNext m s.start = q) :
    Linked (writeFree (splitBlock m s.start size) s.start 0) s.start (carve blockSize 16 size s) q := by
  have header := blockSize_pos
  by_cases room : size + blockSize + 16 ≤ s.size
  · have rest : u64Sub (u64Sub s.size size) blockSize = s.size - size - blockSize := by
      rw [u64Sub_of_le large (by omega), u64Sub_of_le (by omega) (by omega)]
    have apart : Apart s.start (s.start + blockSize + size) := .inr (by omega)
    have apart' : Apart (s.start + blockSize + size) s.start := .inl (by omega)
    have old_next : readNext (writeFree (writeSize m (s.start + blockSize + size)
        (s.size - size - blockSize)) (s.start + blockSize + size) 1) s.start = q :=
      (blockAt_fields ((blockAt_writeFree_apart _ apart').trans
        (blockAt_writeSize_apart _ apart'))).2.2.trans next
    simp only [splitBlock, request_fits large small, held, if_pos room, rest, old_next, carve,
      granted]
    -- The new header survives the three stores that follow into the old one.
    have new := (blockAt_writeFree_apart 0 apart).trans ((blockAt_writeNext_apart
      (s.start + blockSize + size) apart).trans ((blockAt_writeSize_apart size apart).trans
      (blockAt_written m (s.start + blockSize + size) (s.size - size - blockSize) 1 q)))
    have new_size := congrArg Block.size new
    have new_free := congrArg Block.free new
    have new_next := congrArg Block.next new
    simp only [blockAt] at new_size new_free new_next
    have q_lt : q < wordModulus := next ▸ readNext_lt m s.start
    have new_at : (s.start + blockSize + size) % wordModulus = s.start + blockSize + size :=
      Nat.mod_eq_of_lt (by omega)
    simp only [Linked, readSize_writeFree, readSize_writeNext, readSize_writeSize,
      readFree_writeFree, readNext_writeFree, readNext_writeNext, new_at]
    refine ⟨trivial, Nat.mod_eq_of_lt (by omega), rfl, trivial, ?_, new_free, ?_⟩
    · exact new_size.trans (Nat.mod_eq_of_lt (by omega))
    · exact new_next.trans (Nat.mod_eq_of_lt q_lt)
  · simp only [splitBlock, request_fits large small, held, if_neg room, carve, granted, Linked,
      readSize_writeFree, readFree_writeFree, readNext_writeFree]
    exact ⟨trivial, trivial, rfl, next⟩

theorem splitBlock_frame (large : size ≤ readSize m p) (in_range : readSize m p < heapSize) (x : Nat)
    (outside : x < p ∨ p + blockSize + readSize m p ≤ x) : splitBlock m p size x = m x := by
  have request := request_fits (s := ⟨p, readSize m p, true⟩) large in_range
  unfold splitBlock
  split
  · next room =>
    rw [request] at room
    rw [writeNext_frame _ _ _ _ (by omega), writeSize_frame _ _ _ _ (by omega),
      writeNext_frame _ _ _ _ (by omega), writeFree_frame _ _ _ _ (by omega),
      writeSize_frame _ _ _ _ (by omega)]
  · rfl

/-- What malloc does to the list and to memory when it finds a block. -/
theorem take_represents {site : Site} (rep : Represents site m p segs)
    (found : allocate blockSize 16 size segs = some (g, out)) :
    Represents site (writeFree (splitBlock m g.start size) g.start 0) p out ∧
      ∃ s ∈ segs, s.free = true ∧ s.start = g.start ∧
        ∀ x, x < s.start ∨ s.stop blockSize ≤ x →
          writeFree (splitBlock m g.start size) g.start 0 x = m x := by
  have tiles := allocate_tiles found rep.tiles
  obtain ⟨before, s, after, rfl, isFree, large, -, rfl, rfl⟩ := allocate_some found
  obtain ⟨mid, left, right⟩ := linked_append.mp rep.linked
  obtain ⟨rfl, held, -, tail⟩ := right
  obtain ⟨-, fits, small⟩ := tiles_in_range (Nat.le_refl site.base) (Nat.le_refl _) rep.tiles
    (List.mem_append_right before List.mem_cons_self)
  rw [granted_start]
  have outside : ∀ x, x < s.start ∨ s.stop blockSize ≤ x →
      writeFree (splitBlock m s.start size) s.start 0 x = m x := fun x off => by
    simp only [Segment.stop] at off
    rw [writeFree_frame _ _ _ _ (by omega), splitBlock_frame (by omega) (by omega) x (by omega)]
  have order := List.pairwise_append.mp rep.tiles.pairwise
  refine ⟨⟨?_, tiles⟩, s, by simp, isFree, rfl, outside⟩
  refine linked_append.mpr ⟨s.start, left.congr ?_, ?_⟩
  · intro t member x low high
    have below := order.2.2 t member s List.mem_cons_self
    exact outside x (.inl (by simp only [Segment.stop] at below; omega))
  · refine linked_append.mpr ⟨readNext m s.start, take_block held large fits small rfl, tail.congr ?_⟩
    intro t member x low high
    have above := (List.pairwise_cons.mp order.2.1).1 t member
    exact outside x (.inr (by omega))

/-! ## merge_free_blocks -/

/-- The sum that the loop stores does not wrap. -/
theorem fuse_size_eq (tiles : Tiles blockSize s.start (s :: t :: rest) hi) (high : hi ≤ wordModulus) :
    u64Add s.size (u64Add blockSize t.size) = (fuse blockSize s t).size ∧
      (fuse blockSize s t).size < wordModulus := by
  have header := blockSize_pos
  have start_t : t.start = s.stop blockSize := tiles.2.1
  have bound := (tiles.2.bounds List.mem_cons_self).2
  simp only [Segment.stop] at start_t bound
  have inner : u64Add blockSize t.size = blockSize + t.size := u64Add_of_lt (by omega)
  rw [inner, u64Add_of_lt (by omega), fuse_size]
  exact ⟨rfl, by omega⟩

/-- After the two stores the fused block heads the rest of the list, whose headers
are all above it. -/
theorem fuse_linked (linked : Linked m s.start (s :: t :: rest) null)
    (tiles : Tiles blockSize s.start (s :: t :: rest) hi) (high : hi ≤ wordModulus) :
    Linked (writeNext (writeSize m s.start (fuse blockSize s t).size) s.start (readNext m t.start))
      (fuse blockSize s t).start (fuse blockSize s t :: rest) null := by
  obtain ⟨-, -, freeS, at_t, -, -, tail⟩ := linked
  rw [at_t] at tail
  have start_t : t.start = s.stop blockSize := tiles.2.1
  simp only [Segment.stop] at start_t
  refine ⟨rfl, ?_, ?_, ?_⟩
  · simpa using Nat.mod_eq_of_lt (fuse_size_eq tiles high).2
  · simpa using freeS
  · rw [fuse_start, readNext_writeNext, Nat.mod_eq_of_lt (readNext_lt m t.start)]
    apply tail.congr
    intro u member x low _
    have above := (tiles.2.2.bounds member).1
    simp only [Segment.stop] at above
    rw [writeNext_frame _ _ _ _ (by omega), writeSize_frame _ _ _ _ (by omega)]

/-- A header stays in front of a list that changes above it only. -/
theorem cons_linked {out : List Segment} (linked : Linked m s.start (s :: t :: rest) null)
    (tiles : Tiles blockSize s.start (s :: t :: rest) hi) (linked' : Linked m' t.start out null)
    (frame : ∀ x, OffHeaders (t :: rest) x → m' x = m x) :
    Linked m' s.start (s :: out) null := by
  obtain ⟨-, heldS, freeS, at_t, -⟩ := linked
  have kept : blockAt m' s.start = blockAt m s.start := by
    refine blockAt_congr (fun x low up => frame x (fun u member => .inl ?_))
    have above := (tiles.2.bounds member).1
    simp only [Segment.stop] at above
    omega
  obtain ⟨size', free', next'⟩ := blockAt_fields kept
  refine ⟨rfl, size'.trans heldS, free'.trans freeS, ?_⟩
  rw [next', at_t]
  exact linked'

/-- The loop fuses free neighbours from `s` on and changes header bytes only. -/
theorem mergeLoop_linked (budget : Nat) (linked : Linked m s.start (s :: rest) null)
    (tiles : Tiles blockSize s.start (s :: rest) hi) (pos : 0 < s.start) (high : hi ≤ wordModulus)
    (enough : rest.length < budget) :
    ∃ m', mergeLoop budget m s.start = some m' ∧
      Linked m' s.start (coalesceFrom blockSize s rest) null ∧
      ∀ x, OffHeaders (s :: rest) x → m' x = m x := by
  have header := blockSize_pos
  induction rest generalizing m s budget with
  | nil =>
    obtain ⟨budget, rfl⟩ := Nat.exists_eq_add_one_of_ne_zero (Nat.ne_of_gt enough)
    have last : readNext m s.start = null := linked.2.2.2
    exact ⟨m, by simp [mergeLoop, last], linked, fun x _ => rfl⟩
  | cons t rest ih =>
    obtain ⟨budget, rfl⟩ := Nat.exists_eq_add_one_of_ne_zero (Nat.ne_of_gt (Nat.zero_lt_of_lt enough))
    simp only [List.length_cons, Nat.add_lt_add_iff_right] at enough
    obtain ⟨-, heldS, freeS, at_t, heldT, freeT, tail⟩ := linked
    have start_t : t.start = s.stop blockSize := tiles.2.1
    simp only [Segment.stop] at start_t
    have whole : Linked m s.start (s :: t :: rest) null :=
      ⟨rfl, heldS, freeS, at_t, heldT, freeT, tail⟩
    rw [at_t] at heldT freeT tail
    have going : ¬ (s.start = null ∨ readNext m s.start = null) := by
      rw [at_t]
      unfold null
      omega
    rw [mergeLoop, if_neg going]
    simp only [at_t, freeS, freeT, heldS, heldT, flag_ne_zero, coalesceFrom]
    split
    · next both =>
      have apart : Apart s.start t.start := .inr (by omega)
      have next : readNext (writeSize m s.start (fuse blockSize s t).size) t.start =
          readNext m t.start := (blockAt_fields (blockAt_writeSize_apart _ apart)).2.2
      have at_next : readNext (writeSize m s.start (fuse blockSize s t).size) s.start = t.start :=
        (readNext_writeSize m s.start _).trans at_t
      have fused_tiles : Tiles blockSize (fuse blockSize s t).start (fuse blockSize s t :: rest) hi :=
        ⟨rfl, by rw [fuse_stop tiles.2.1]; exact tiles.2.2⟩
      rw [(fuse_size_eq tiles high).1, at_next, next]
      obtain ⟨m', run, linked', frame⟩ :=
        ih budget (fuse_linked whole tiles high) fused_tiles pos enough
      refine ⟨m', run, linked', fun x off => ?_⟩
      obtain ⟨off_s, off_rest⟩ := OffHeaders.cons.mp off
      rw [frame x (OffHeaders.cons.mpr ⟨off_s, (OffHeaders.cons.mp off_rest).2⟩),
        writeNext_frame _ _ _ _ off_s, writeSize_frame _ _ _ _ off_s]
    · obtain ⟨m', run, linked', frame⟩ := ih budget (s := t) ⟨rfl, heldT, freeT, tail⟩
        ⟨rfl, tiles.2.2⟩ (by omega) enough
      exact ⟨m', run, cons_linked whole tiles linked' frame,
        fun x off => frame x (OffHeaders.cons.mp off).2⟩

theorem mergeFreeBlocks_represents {site : Site} (st : State)
    (rep : Represents site st.memory st.freeList segs) :
    ∃ m', mergeFreeBlocks st = some { st with memory := m' } ∧
      Represents site m' st.freeList (coalesce blockSize segs) ∧
      ∀ x, OffHeaders segs x → m' x = st.memory x := by
  have pos := site.base_pos
  have fits := site.fits
  have enough := rep.length_lt
  have head := rep.head
  cases segs with
  | nil => exact absurd rfl rep.ne_nil
  | cons s rest =>
    have at_s : st.freeList = s.start := rep.linked.1
    have linked := rep.linked
    rw [at_s] at linked
    obtain ⟨m', run, linked', frame⟩ := mergeLoop_linked walkBudget linked
      ⟨rfl, rep.tiles.2⟩ (by omega) fits (Nat.lt_of_succ_lt enough)
    refine ⟨m', ?_, ⟨?_, coalesce_tiles rep.tiles⟩, frame⟩
    · rw [mergeFreeBlocks, at_s, run]
      rfl
    · rw [at_s]
      exact linked'

/-- Without free neighbours the loop walks to the end and stores nothing. -/
theorem mergeLoop_separated (budget : Nat) (linked : Linked m p segs null)
    (nonnull : ∀ s ∈ segs, 0 < s.start) (separated : Separated segs)
    (enough : segs.length < budget) : mergeLoop budget m p = some m := by
  induction segs generalizing p budget with
  | nil =>
    obtain ⟨budget, rfl⟩ := Nat.exists_eq_add_one_of_ne_zero (Nat.ne_of_gt enough)
    exact if_pos (.inl linked)
  | cons s rest ih =>
    obtain ⟨budget, rfl⟩ := Nat.exists_eq_add_one_of_ne_zero (Nat.ne_of_gt (Nat.zero_lt_of_lt enough))
    simp only [List.length_cons, Nat.add_lt_add_iff_right] at enough
    obtain ⟨rfl, -, freeS, tail⟩ := linked
    have walked := ih budget tail (fun t member => nonnull t (List.mem_cons_of_mem s member))
      separated.tail enough
    rw [mergeLoop]
    split
    · rfl
    · next going =>
      have apart : ¬ (readFree m s.start ≠ 0 ∧ readFree m (readNext m s.start) ≠ 0) := by
        cases rest with
        | nil => exact absurd (.inr tail) going
        | cons t rest =>
          rw [freeS, tail.2.2.1, flag_ne_zero, flag_ne_zero]
          exact (List.isChain_cons_cons.mp separated).1
      rw [if_neg apart, walked]

theorem mergeFreeBlocks_separated {site : Site} (st : State)
    (rep : Represents site st.memory st.freeList segs) (separated : Separated segs) :
    mergeFreeBlocks st = some st := by
  have nonnull : ∀ s ∈ segs, 0 < s.start := fun s member =>
    (tiles_in_range (Nat.le_refl site.base) (Nat.le_refl _) rep.tiles member).1
  rw [mergeFreeBlocks, mergeLoop_separated walkBudget rep.linked nonnull separated rep.length_lt]
  rfl

end AxiomeToolchain.Source.Heap
