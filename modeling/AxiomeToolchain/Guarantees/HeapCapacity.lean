import AxiomeToolchain.Source.HeapRequests

/-!
# The capacity of a grant

A pointer returned for a request has a block of at least that many bytes, and
calloc and realloc fill no more of it; a request that no block can satisfy gets
NULL. ALIGN16 breaks this for the last 15 sizes below 2^64: they round to 0, and
any free block will do.
-/

set_option autoImplicit false

namespace AxiomeToolchain.Guarantees.HeapCapacity
open AxiomeToolchain.Library.ByteMemory
open AxiomeToolchain.Library.CInt
open AxiomeToolchain.Library.Tiling
open AxiomeToolchain.Library.FirstFit
open AxiomeToolchain.Library.Runs
open AxiomeToolchain.Source.Heap

/-- `q` is owned by a block in use with a payload of at least `n` bytes. -/
def Granted (site : Site) (st : State) (q n : Nat) : Prop :=
  ∃ b ∈ blockList site st, b.addr + blockSize = q ∧ b.free = 0 ∧ n ≤ b.size

/-- The capacity law for one call: `result` for the pointer it returns, `filled`
for the memset or memcpy it makes on the way. -/
structure Capacity (site : Site) (st : State) (op : Op) : Prop where
  result : ∃ st' q, op.run site st = some (st', q) ∧ (q ≠ null → Granted site st' q op.request) ∧
    ((∀ b ∈ blockList site st, b.free ≠ 0 ∨ b.addr + blockSize = op.kept →
      b.size < op.request) → q = null)
  filled : ∀ f, op.fill site st = some f →
    Granted site f.state f.dst op.request ∧ f.count ≤ op.request

variable {site : Site} {c : Tenant} {client : Client} {st st' : State} {n q : Nat} {op : Op}
  {s : Segment} {segs : List Segment}

theorem block_of_mem (heap : HeapAt site st segs) (member : s ∈ segs) :
    ∃ b ∈ blockList site st, b.addr = s.start ∧ b.size = s.size ∧ b.free = flag s.free := by
  rw [blockList_eq heap]
  exact rawBlocks_of_mem member

theorem granted_iff (heap : HeapAt site st segs) (member : s ∈ segs) (used : s.free = false) :
    Granted site st (s.start + blockSize) n ↔ n ≤ s.size := by
  constructor
  · intro ⟨b, in_list, owns, _, room⟩
    rw [blockList_eq heap] at in_list
    obtain ⟨t, in_segs, start, size, -⟩ := mem_rawBlocks in_list
    have same : t = s := heap.tiles.start_inj blockSize_pos in_segs member (by omega)
    rw [← same, ← size]
    exact room
  · intro room
    obtain ⟨b, in_list, start, size, free⟩ := block_of_mem heap member
    refine ⟨b, in_list, by rw [start], ?_, by rwa [size]⟩
    rw [free, used]
    rfl

/-- Up to 2^64 - 16 bytes malloc returns room for the request, taken from a free block. -/
theorem malloc_fits (inv : Inv site client segs) (small : n ≤ maxRequest)
    (run : malloc site client.state n = some (st, q)) (nonnull : q ≠ null) :
    Granted site st q n ∧ ∃ s ∈ segs, s.free = true ∧ n ≤ s.size := by
  by_cases refused : n = 0 ∨ allocate blockSize 16 (align16 n) segs = none
  · obtain ⟨st', run', -⟩ := inv.malloc_null refused
    rw [run] at run'
    cases run'
    exact absurd rfl nonnull
  · obtain ⟨nonzero, some_found⟩ := not_or.mp refused
    obtain ⟨⟨g, out⟩, found⟩ := Option.ne_none_iff_exists'.mp some_found
    obtain ⟨st', run', inv'⟩ := inv.malloc_some nonzero found
    rw [run] at run'
    cases run'
    have rounded : n ≤ align16 n :=
      align16_ge (by unfold maxRequest at small; unfold wordModulus; omega)
    obtain ⟨large, used, in_out⟩ := allocate_grant found
    obtain ⟨before, s, after, rfl, isFree, enough, -⟩ := allocate_some found
    refine ⟨(granted_iff inv'.heap in_out used).mpr (rounded.trans large), s, ?_, isFree,
      rounded.trans enough⟩
    exact List.mem_append_right _ List.mem_cons_self

/-- A request that wraps to 0 is handed the first free block. -/
theorem malloc_wraps (inv : Inv site client segs) (large : maxRequest < n) (fits : n < wordModulus)
    (member : s ∈ segs) (isFree : s.free = true) :
    ∃ st q, malloc site client.state n = some (st, q) ∧ q ≠ null ∧ ¬ Granted site st q n := by
  have zero : align16 n = 0 :=
    align16_wraps (by unfold maxRequest at large; unfold wordModulus; omega) fits
  have some_found : allocate blockSize 16 (align16 n) segs ≠ none := by
    intro none_found
    refine allocate_eq_none.mp none_found s member ⟨isFree, ?_⟩
    rw [zero]
    exact Nat.zero_le _
  obtain ⟨⟨g, out⟩, found⟩ := Option.ne_none_iff_exists'.mp some_found
  obtain ⟨st, run, inv'⟩ := inv.malloc_some (by omega) found
  obtain ⟨-, used, in_out⟩ := allocate_grant found
  refine ⟨st, _, run, inv'.pointer_ne_null List.mem_cons_self, fun granted => ?_⟩
  exact inv'.heap.misfit in_out large ((granted_iff inv'.heap in_out used).mp granted)

/-- The view after a call has the returned pointer with all the bytes asked for. -/
theorem granted_view (view : View) (m : Memory) (asked : op.request ≠ 0) (nonnull : q ≠ null) :
    ∃ a ∈ view.after m q op, a.ptr = q ∧ a.data.length = op.request := by
  cases op with
  | malloc n =>
    simp only [View.after, if_neg nonnull]
    exact ⟨_, List.mem_cons_self, rfl, bytesAt_length _ _ _⟩
  | calloc nmemb size =>
    simp only [View.after, if_neg nonnull]
    exact ⟨_, List.mem_cons_self, rfl, List.length_replicate⟩
  | realloc p n =>
    have asked : n.toNat ≠ 0 := asked
    simp only [View.after, if_neg nonnull, if_neg asked]
    split
    · exact ⟨_, List.mem_cons_self, rfl, bytesAt_length _ _ _⟩
    · refine ⟨_, List.mem_cons_self, rfl, ?_⟩
      simp only [carried, List.length_append, List.length_take, bytesAt_length, Op.request]
      omega
  | free p => exact absurd rfl asked
  | write p offset bytes => exact absurd rfl asked

/-- A request that is not refused had a block to satisfy it. -/
theorem satisfied (iso : Isolated site c segs) (proper : op.proper c)
    (small : op.request ≤ maxRequest) (run : op.run site c.state = some (st, q))
    (nonnull : q ≠ null) :
    ∃ b ∈ blockList site c.state, (b.free ≠ 0 ∨ b.addr + blockSize = op.kept) ∧
      op.request ≤ b.size := by
  obtain ⟨-, source⟩ := run_nonnull run nonnull
  rcases source with ⟨out, granted⟩ | ⟨rfl, fits⟩
  · obtain ⟨-, s, member, isFree, room⟩ := malloc_fits iso.inv small granted nonnull
    obtain ⟨b, in_list, -, size, free⟩ := block_of_mem iso.inv.heap member
    exact ⟨b, in_list, .inl (by rw [free]; exact flag_ne_zero.mpr isFree), by rwa [size]⟩
  · obtain ⟨s, in_segs, at_s, size_read⟩ :=
      iso.held_block ((proper_kept proper).resolve_left nonnull)
    obtain ⟨b, in_list, start, size, -⟩ := block_of_mem iso.inv.heap in_segs
    rw [size_read] at fits
    exact ⟨b, in_list, .inr (by rw [start, at_s]), by rwa [size]⟩

theorem capacity_of_served (iso : Isolated site c segs) (proper : op.proper c)
    (served : op.served site c.state) : Capacity site c.state op := by
  by_cases usual : op.allowed c
  · obtain ⟨st, q, out, run, after, -⟩ := iso.step usual
    constructor
    · refine ⟨st, q, run, fun nonnull => ?_, fun unsatisfiable => ?_⟩
      · obtain ⟨asked, -⟩ := run_nonnull run nonnull
        obtain ⟨a, member, at_a, length⟩ := granted_view c.view st.memory asked nonnull
        obtain ⟨s, in_segs, used, at_s, room⟩ := after.sized a member
        rw [← at_a, at_s, ← length]
        exact (granted_iff after.inv.heap in_segs used).mpr room
      · by_contra nonnull
        obtain ⟨b, in_list, candidate, room⟩ :=
          satisfied iso proper (allowed_small usual) run nonnull
        exact absurd room (Nat.not_le.mpr (unsatisfiable b in_list candidate))
    · intro f filled
      obtain ⟨run, nonnull, count, -⟩ := fill_spec filled
      exact ⟨(malloc_fits iso.inv (allowed_small usual) run nonnull).1, count⟩
  · obtain ⟨st, run, -, -, unfilled⟩ := iso.refused proper served usual
    constructor
    · exact ⟨st, null, run, fun nonnull => absurd rfl nonnull, fun _ => rfl⟩
    · intro f filled
      rw [unfilled] at filled
      cases filled

/-- A request that is not served gets a block that is too small, or fills one. -/
theorem served_of_capacity (iso : Isolated site c segs) (proper : op.proper c)
    (capacity : Capacity site c.state op) : op.served site c.state := by
  by_contra unserved
  obtain ⟨large, unserved⟩ := not_or.mp unserved
  obtain ⟨fits, unused⟩ := not_or.mp unserved
  rw [blocks_used iso.inv.heap] at unused
  push Not at large fits unused
  obtain ⟨s, member, isFree⟩ := unused
  have isFree : s.free = true := by simpa using isFree
  obtain ⟨st, q, run, nonnull, refuted⟩ := malloc_wraps iso.inv large fits member isFree
  have direct : op.run site c.state = some (st, q) → False := by
    intro direct
    obtain ⟨st', q', run', granted, -⟩ := capacity.result
    rw [direct] at run'
    cases run'
    exact refuted (granted nonnull)
  have looped : ∀ count, op.fill site c.state = some ⟨st, q, count⟩ → False :=
    fun count filled => refuted (capacity.filled _ filled).1
  cases op with
  | malloc n => exact direct run
  | calloc nmemb size =>
    have run : malloc site c.state (nmemb.toNat * size.toNat) = some (st, q) := run
    have positive : 0 < nmemb.toNat * size.toNat := Nat.lt_of_le_of_lt (Nat.zero_le _) large
    have size_pos := Nat.pos_of_mul_pos_left positive
    have members := Nat.pos_of_mul_pos_right positive
    have passed : ¬ nmemb.toNat > (wordModulus - 1) / size.toNat :=
      (check_passes_iff size_pos).mpr fits
    apply looped (nmemb.toNat * size.toNat)
    simp only [Op.fill, members.ne', size_pos.ne', passed, or_self, if_false, u64Mul_of_lt fits, run,
      Option.bind_some, nonnull]
  | realloc p n =>
    have granted : malloc site c.state n.toNat = some (st, q) := run
    by_cases isNull : p = null
    · apply direct
      simp only [Op.run, realloc, if_pos isNull, granted]
    · obtain ⟨t, in_segs, -, size_read⟩ := iso.held_block (proper.resolve_left isNull)
      have large : maxRequest < n.toNat := large
      have misfit := iso.inv.heap.misfit in_segs large
      have nonzero : n.toNat ≠ 0 := by omega
      apply looped _
      simp only [Op.fill, isNull, nonzero, size_read, misfit, or_self, if_false, granted,
        Option.bind_some, nonnull]
      rfl
  | free p => exact absurd large (Nat.not_lt_zero _)
  | write p offset bytes => exact absurd large (Nat.not_lt_zero _)

/-- As long as every request is served, a call meets the capacity law exactly
when it is served itself. -/
theorem capacity_iff (site : Site) (c : Tenant) (op : Op) (reach : Reachable (guests site) c)
    (proper : op.proper c) : Capacity site c.state op ↔ op.served site c.state := by
  obtain ⟨segs, iso⟩ := guests_isolated reach
  exact ⟨served_of_capacity iso proper, capacity_of_served iso proper⟩

def exampleGuest : Tenant := ⟨exampleStart.state, []⟩

theorem exampleGuest_reachable : Reachable (guests exampleSite) exampleGuest :=
  .initial ⟨rfl, rfl, rfl⟩

/-- On a heap with a hole malloc(50) meets the law, and malloc(SIZE_MAX) does not. -/
theorem capacity_of_hole : ∃ c₁ c₂ c₃,
    exampleGuest.step exampleSite (.malloc 100) = some (c₁, 4120) ∧
    c₁.step exampleSite (.malloc 200) = some (c₂, 4256) ∧
    c₂.step exampleSite (.free 4120) = some (c₃, null) ∧
    Capacity exampleSite c₃.state (.malloc 50) ∧
    ¬ Capacity exampleSite c₃.state (.malloc (BitVec.ofNat 64 (2 ^ 64 - 1))) := by
  obtain ⟨c₁, c₂, c₃, run₁, run₂, run₃, -, second, -, iso⟩ := exampleTenant_hole
  have reach := guest_reaches run₁ exampleGuest_reachable trivial (.inl (by decide))
  have reach := guest_reaches run₂ reach trivial (.inl (by decide))
  have reach := guest_reaches run₃ reach (.inr (by simp [second])) (.inl (by decide))
  refine ⟨c₁, c₂, c₃, run₁, run₂, run₃, ?_, fun law => ?_⟩
  · exact (capacity_iff exampleSite c₃ (.malloc 50) reach trivial).mpr (.inl (by decide))
  · have largest := capacity_iff exampleSite c₃ (.malloc (BitVec.ofNat 64 (2 ^ 64 - 1))) reach trivial
    rcases largest.mp law with small | large | used
    · exact absurd small (by decide)
    · exact absurd large (by decide)
    · have inUse := (blocks_used iso.inv.heap).mp used ⟨4096, 112, true⟩ List.mem_cons_self
      cases inUse

/-- The first malloc(SIZE_MAX) of a program returns a block of no bytes. -/
theorem largest_request_granted : Reachable (guests exampleSite) exampleGuest ∧
    (∃ st, malloc exampleSite exampleGuest.state (2 ^ 64 - 1) = some (st, 4120) ∧
      allocatedBlocks exampleSite st = [⟨4096, 0, false⟩]) ∧
    ¬ Capacity exampleSite exampleGuest.state (.malloc (BitVec.ofNat 64 (2 ^ 64 - 1))) := by
  have iso : Isolated exampleSite exampleGuest [initialSegment exampleSite] :=
    Isolated.initial ⟨rfl, rfl, rfl⟩
  refine ⟨exampleGuest_reachable, ?_, fun capacity => ?_⟩
  · have zero : align16 (2 ^ 64 - 1) = 0 := align16_wraps (by decide) (by decide)
    have found : allocate blockSize 16 (align16 (2 ^ 64 - 1)) [initialSegment exampleSite] =
        some (⟨4096, 0, false⟩, [⟨4096, 0, false⟩, ⟨4120, heapSize - 48, true⟩]) := by
      rw [zero]
      decide
    obtain ⟨st, run, inv⟩ := iso.inv.malloc_some (by decide) found
    refine ⟨st, run, ?_⟩
    rw [allocatedBlocks_eq inv.heap]
    rfl
  · have proper : (Op.malloc (BitVec.ofNat 64 (2 ^ 64 - 1))).proper exampleGuest := trivial
    rcases served_of_capacity iso proper capacity with small | large | used
    · exact absurd small (by decide)
    · exact absurd large (by decide)
    · have inUse := (blocks_used iso.inv.heap).mp used _ (List.mem_singleton_self _)
      cases inUse

end AxiomeToolchain.Guarantees.HeapCapacity
