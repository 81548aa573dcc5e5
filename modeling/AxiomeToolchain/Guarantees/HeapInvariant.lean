import AxiomeToolchain.Source.HeapRuns

/-!
# The representation invariant of the allocator

After every call of every run of malloc and free the headers reachable from
free_list tile the heap array, no two neighbours are free, and the blocks in use
are the client's live pointers. The statements here are about the headers as
the program reads them from memory, not about the abstract list.
-/

set_option autoImplicit false

namespace AxiomeToolchain.Guarantees.HeapInvariant
open AxiomeToolchain.Library.ByteMemory
open AxiomeToolchain.Library.CInt
open AxiomeToolchain.Library.Tiling
open AxiomeToolchain.Library.Runs
open AxiomeToolchain.Source.Heap

def headerRange (b : Block) : Set Nat := Set.Ico b.addr (b.addr + blockSize)

def payloadRange (b : Block) : Set Nat := Set.Ico (b.addr + blockSize) (b.addr + blockSize + b.size)

/-- `blocks` is the whole list from `p` to its NULL, header by header. -/
def IsBlockList (m : Memory) : Nat → List Block → Prop
  | p, [] => p = null
  | p, b :: rest => p ≠ null ∧ b = blockAt m p ∧ IsBlockList m b.next rest

structure WellFormed (site : Site) (c : Client) (blocks : List Block) : Prop where
  reachable : IsBlockList c.state.memory c.state.freeList blocks
  first : ∃ b, blocks.head? = some b ∧ b.addr = site.base
  adjacent : blocks.IsChain (fun a b => a.next = a.addr + blockSize + a.size ∧ b.addr = a.next)
  last : ∃ b, blocks.getLast? = some b ∧ b.addr + blockSize + b.size = site.base + heapSize ∧
    b.next = null
  ordered : blocks.Pairwise (fun a b => a.addr < b.addr)
  coalesced : blocks.IsChain (fun a b => ¬ (a.free ≠ 0 ∧ b.free ≠ 0))
  live_nodup : c.live.Nodup
  live_blocks : c.live.Perm
    ((blocks.filter (fun b => b.free = 0)).map (fun b => b.addr + blockSize))
  payloads_disjoint : ∀ a ∈ blocks, ∀ b ∈ blocks, a.free = 0 → b.free = 0 → a ≠ b →
    Disjoint (payloadRange a) (payloadRange b)
  headers_disjoint : ∀ a ∈ blocks, ∀ b ∈ blocks, a.free = 0 →
    Disjoint (payloadRange a) (headerRange b)

variable {site : Site} {c : Client} {m : Memory} {p q lo hi : Nat} {segs : List Segment}

theorem isBlockList_rawBlocks (linked : Linked m p segs null) (pos : ∀ s ∈ segs, 0 < s.start) :
    IsBlockList m p (rawBlocks segs) := by
  induction segs generalizing p with
  | nil => exact linked
  | cons s rest ih =>
    have first := linked_rawBlocks linked
    obtain ⟨rfl, -, -, tail⟩ := linked
    have head_pos := pos s List.mem_cons_self
    rw [rawBlocks] at first ⊢
    have head := (List.cons.inj first).1
    refine ⟨by unfold null; omega, head.symm, ?_⟩
    rw [← head]
    exact ih tail (fun t member => pos t (List.mem_cons_of_mem s member))

theorem rawBlocks_span (segs : List Segment) :
    (rawBlocks segs).map (fun b => (b.addr, b.size)) = segs.map (fun s => (s.start, s.size)) := by
  induction segs with
  | nil => rfl
  | cons s rest ih => rw [rawBlocks, List.map_cons, List.map_cons, ih]

/-- A relation between neighbours carries over to the headers. -/
theorem rawBlocks_chain {R : Segment → Segment → Prop} {Q : Block → Block → Prop}
    (lift : ∀ s t next, R s t →
      Q ⟨s.start, s.size, flag s.free, t.start⟩ ⟨t.start, t.size, flag t.free, next⟩)
    (chain : segs.IsChain R) : (rawBlocks segs).IsChain Q := by
  induction segs with
  | nil => exact List.isChain_nil
  | cons s rest ih =>
    cases rest with
    | nil => exact List.isChain_singleton _
    | cons t rest =>
      obtain ⟨related, tail⟩ := List.isChain_cons_cons.mp chain
      have inner := ih tail
      simp only [rawBlocks] at inner ⊢
      exact List.isChain_cons_cons.mpr ⟨lift s t _ related, inner⟩

theorem tiles_chain (tiles : Tiles blockSize lo segs hi) :
    segs.IsChain (fun s t => t.start = s.start + blockSize + s.size) := by
  induction segs generalizing lo with
  | nil => exact List.isChain_nil
  | cons s rest ih =>
    cases rest with
    | nil => exact List.isChain_singleton _
    | cons t rest => exact List.isChain_cons_cons.mpr ⟨tiles.2.1, ih tiles.2⟩

theorem rawBlocks_last (tiles : Tiles blockSize lo segs hi) (nonempty : segs ≠ []) :
    ∃ b, (rawBlocks segs).getLast? = some b ∧ b.addr + blockSize + b.size = hi ∧ b.next = null := by
  induction segs generalizing lo with
  | nil => exact absurd rfl nonempty
  | cons s rest ih =>
    cases rest with
    | nil => exact ⟨_, rfl, tiles.2, rfl⟩
    | cons t rest =>
      obtain ⟨b, last, stop, next⟩ := ih tiles.2 (List.cons_ne_nil t rest)
      refine ⟨b, ?_, stop, next⟩
      rw [rawBlocks, List.getLast?_cons, last]
      rfl

/-- Any two headers of the list are the same or lie one after the other. -/
theorem rawBlocks_apart (tiles : Tiles blockSize lo segs hi) :
    ∀ a ∈ rawBlocks segs, ∀ b ∈ rawBlocks segs,
      a = b ∨ a.addr + blockSize + a.size ≤ b.addr ∨ b.addr + blockSize + b.size ≤ a.addr := by
  have spans : ((rawBlocks segs).map (fun b => (b.addr, b.size))).Pairwise
      (fun x y => x.1 + blockSize + x.2 ≤ y.1) := by
    rw [rawBlocks_span]
    exact List.pairwise_map.mpr tiles.pairwise
  let R : Block → Block → Prop := fun a b =>
    a = b ∨ a.addr + blockSize + a.size ≤ b.addr ∨ b.addr + blockSize + b.size ≤ a.addr
  have symmetric : Std.Symm R := ⟨by
    rintro a b (rfl | below | above)
    · exact .inl rfl
    · exact .inr (.inr below)
    · exact .inr (.inl above)⟩
  have related : (rawBlocks segs).Pairwise R :=
    (List.pairwise_map.mp spans).imp (fun below => .inr (.inl below))
  intro a ha b hb
  by_cases same : a = b
  · exact .inl same
  · exact related.forall ha hb same

theorem inv_wellFormed (inv : Inv site c segs) (ready : c.state.heapInit = true) :
    WellFormed site c (rawBlocks segs) := by
  have rep := (heapAt_of_init ready).mp inv.heap
  have pos : ∀ s ∈ segs, 0 < s.start := fun s member => inv.heap.start_pos member
  have apart := rawBlocks_apart rep.tiles
  refine
    { reachable := isBlockList_rawBlocks rep.linked pos
      first := ?_
      adjacent := rawBlocks_chain (fun s t _ touching => ⟨touching, rfl⟩) (tiles_chain rep.tiles)
      last := rawBlocks_last rep.tiles rep.ne_nil
      ordered := ?_
      coalesced := rawBlocks_chain (fun s t _ apart => by simpa only [flag_ne_zero] using apart)
        inv.separated
      live_nodup := inv.live_nodup
      live_blocks := ?_
      payloads_disjoint := ?_
      headers_disjoint := ?_ }
  · have nonempty := rep.ne_nil
    have tiles := rep.tiles
    cases segs with
    | nil => exact absurd rfl nonempty
    | cons s rest => exact ⟨_, rfl, tiles.1⟩
  · have starts : ((rawBlocks segs).map (fun b => (b.addr, b.size))).Pairwise
        (fun x y => x.1 < y.1) := by
      rw [rawBlocks_span]
      refine List.pairwise_map.mpr (rep.tiles.pairwise.imp (fun {s t} below => ?_))
      simp only [Segment.stop, blockSize] at below
      omega
    exact (List.pairwise_map (f := fun b : Block => (b.addr, b.size))).mp starts
  · have same := congrArg (List.map (fun s : Segment => s.start + blockSize)) (rawBlocks_allocated segs)
    rw [List.map_map] at same
    exact inv.live.trans (List.Perm.of_eq same.symm)
  · intro a ha b hb _ _ different
    apply Set.disjoint_left.mpr
    intro x in_a in_b
    simp only [payloadRange, Set.mem_Ico] at in_a in_b
    rcases apart a ha b hb with same | below | above
    · exact different same
    · omega
    · omega
  · intro a ha b hb _
    apply Set.disjoint_left.mpr
    intro x in_a in_b
    simp only [payloadRange, headerRange, Set.mem_Ico] at in_a in_b
    rcases apart a ha b hb with same | below | above
    · subst same
      omega
    · omega
    · omega

/-- In every state a run of malloc and free reaches, every allowed call returns,
and once the heap is initialised its block list is well formed. -/
theorem heap_representation (site : Site) (c : Client) (reach : Reachable (clients site) c) :
    (∀ call : Call, call.allowed c → ∃ c', c.step site call = some c') ∧
      (c.state.heapInit = true → ∃ blocks, WellFormed site c blocks) := by
  refine ⟨fun call ok => reachable_returns reach ok, fun ready => ?_⟩
  obtain ⟨segs, inv⟩ := reachable_inv reach
  exact ⟨rawBlocks segs, inv_wellFormed inv ready⟩

/-- malloc(100), malloc(200) and a free of the first. -/
theorem heap_representation_hole : ∃ c blocks,
    exampleStart.steps exampleSite [.malloc 100, .malloc 200, .free 4120] = some c ∧
      c.live = [4256] ∧ WellFormed exampleSite c blocks ∧
      ∃ c', c.step exampleSite (.free 4256) = some c' := by
  obtain ⟨c, run, reach, live, inv⟩ := example_hole
  obtain ⟨returns, formed⟩ := heap_representation exampleSite c reach
  obtain ⟨blocks, wellFormed⟩ := formed (inv.ready (by simp [live]))
  exact ⟨c, blocks, run, live, wellFormed, returns (.free 4256) (.inr (by simp [live]))⟩

end AxiomeToolchain.Guarantees.HeapInvariant
