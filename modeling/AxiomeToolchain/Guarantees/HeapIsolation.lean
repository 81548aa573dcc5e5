import AxiomeToolchain.Source.HeapLedger

/-!
# Heap isolation

Runs of malloc, calloc, realloc, free and client writes over one byte memory
that holds headers and payloads. Every live payload holds what its client last
put there, a client write reaches no header, and a request that is refused for
lack of memory changes neither the block list nor a live payload.
-/

set_option autoImplicit false

namespace AxiomeToolchain.Guarantees.HeapIsolation
open AxiomeToolchain.Library.ByteMemory
open AxiomeToolchain.Library.FirstFit (allocate)
open AxiomeToolchain.Library.Tiling
open AxiomeToolchain.Library.Runs
open AxiomeToolchain.Source.Heap

/-- All 24 bytes of every header are the same in both memories. -/
def SameHeaders (blocks : List Block) (m m' : Memory) : Prop :=
  ∀ b ∈ blocks, ∀ x, b.addr ≤ x → x < b.addr + blockSize → m' x = m x

/-- Every live payload is the same in both memories. -/
def SamePayloads (view : View) (m m' : Memory) : Prop :=
  ∀ a ∈ view, bytesAt m' a.ptr a.data.length = bytesAt m a.ptr a.data.length

variable {site : Site} {c : Tenant} {segs : List Segment}

theorem write_keeps_headers (iso : Isolated site c segs) (p offset : Nat) (bytes : List UInt8)
    (ok : (Op.write p offset bytes).allowed c) :
    ∃ c', c.step site (.write p offset bytes) = some (c', null) ∧
      blockList site c'.state = blockList site c.state ∧
      SameHeaders (blockList site c.state) c.state.memory c'.state.memory := by
  obtain ⟨a, member, rfl, inside⟩ := ok
  obtain ⟨after, headers⟩ := iso.write member offset bytes inside
  refine ⟨_, rfl, ?_, ?_⟩
  · exact (blockList_eq after.inv.heap).trans (blockList_eq iso.inv.heap).symm
  · intro b in_list x low high
    rw [blockList_eq iso.inv.heap] at in_list
    obtain ⟨s, in_segs, same, -⟩ := mem_rawBlocks in_list
    exact headers s in_segs x (same ▸ low) (same ▸ high)

theorem refused_keeps_all (iso : Isolated site c segs) {op : Op} {c' : Tenant} (ok : op.allowed c)
    (asks : op.requests) (run : c.step site op = some (c', null)) :
    blockList site c'.state = blockList site c.state ∧ c'.view = c.view ∧
      SamePayloads c.view c.state.memory c'.state.memory := by
  obtain ⟨d, q, out, run', -, untouched⟩ := (iso.step ok).tenant_step
  rw [run] at run'
  cases run'
  have kept := untouched rfl asks
  exact ⟨kept.blocks, kept.allocations, fun a member => bytesAt_congr _ _ (kept.payloads a member)⟩

/-- In every reachable state every payload holds its client's bytes and every
allowed call returns, a write changes no header, and a refused request changes
no block, no allocation and no payload. -/
theorem heap_isolation (site : Site) (c : Tenant) (reach : Reachable (tenants site) c) :
    (∀ a ∈ c.view, bytesAt c.state.memory a.ptr a.data.length = a.data) ∧
      (∀ op : Op, op.allowed c → ∃ c' q, c.step site op = some (c', q)) ∧
      (∀ p offset bytes, (Op.write p offset bytes).allowed c →
        ∃ c', c.step site (.write p offset bytes) = some (c', null) ∧
          blockList site c'.state = blockList site c.state ∧
          SameHeaders (blockList site c.state) c.state.memory c'.state.memory) ∧
      ∀ op c', op.allowed c → op.requests → c.step site op = some (c', null) →
        blockList site c'.state = blockList site c.state ∧ c'.view = c.view ∧
          SamePayloads c.view c.state.memory c'.state.memory := by
  obtain ⟨segs, iso⟩ := reachable_isolated reach
  refine ⟨iso.held, fun op ok => ?_, fun p offset bytes ok => ?_, fun op c' ok asks run => ?_⟩
  · obtain ⟨c', q, -, run, -⟩ := (iso.step ok).tenant_step
    exact ⟨c', q, run⟩
  · exact write_keeps_headers iso p offset bytes ok
  · exact refused_keeps_all iso ok asks run

/-- malloc(16), malloc(200), three bytes written into the first and a realloc to
400 bytes, for which the block has to move. -/
theorem heap_isolation_moved : ∃ c₁ c₂ c₃ c₄ q,
    exampleTenant.step exampleSite (.malloc 16) = some (c₁, 4120) ∧
    c₁.step exampleSite (.malloc 200) = some (c₂, 4160) ∧
    c₂.step exampleSite (.write 4120 0 [1, 2, 3]) = some (c₃, null) ∧
    blockList exampleSite c₃.state = blockList exampleSite c₂.state ∧
    c₃.step exampleSite (.realloc 4120 400) = some (c₄, q) ∧ q ≠ null ∧
    bytesAt c₄.state.memory q 3 = [1, 2, 3] := by
  obtain ⟨c₁, c₂, first, second, run₁, run₂, view, length, -, reach, iso⟩ := exampleTenant_two
  have older : (⟨4120, first⟩ : Allocation) ∈ c₂.view := by simp [view]
  have room : 0 + ([1, 2, 3] : List UInt8).length ≤ first.length := by simp [length]
  have place : (Op.write 4120 0 [1, 2, 3]).allowed c₂ := ⟨_, older, rfl, room⟩
  obtain ⟨c₃, run₃, blocks, -⟩ := (heap_isolation exampleSite c₂ reach).2.2.1 _ _ _ place
  have reach := tenant_reaches run₃ reach place
  have written : (⟨_, _⟩ : Tenant) = c₃ := congrArg Prod.fst (Option.some.inj run₃)
  have iso : Isolated exampleSite c₃
      [⟨4096, 16, false⟩, ⟨4136, 208, false⟩, ⟨4368, 4194008, true⟩] := by
    rw [← written]
    exact (iso.write older 0 [1, 2, 3] room).1
  have view : c₃.view = [⟨4160, second⟩, ⟨4120, overwrite first 0 [1, 2, 3]⟩] := by
    rw [← written]
    simp [View.after, View.overwrite, view]
  have resize : (Op.realloc 4120 400).allowed c₃ := ⟨.inr (by simp [View.pointers, view]), by decide⟩
  obtain ⟨c₄, q, run₄⟩ := (heap_isolation exampleSite c₃ reach).2.1 _ resize
  have held := (heap_isolation exampleSite c₄ (tenant_reaches run₄ reach resize)).1
  obtain ⟨⟨st, q'⟩, run, same⟩ := Option.map_eq_some_iff.mp run₄
  obtain ⟨rfl, rfl⟩ := Prod.mk.inj same
  -- behind the second block there is room, so the request is not refused
  have nonnull : q' ≠ null := by
    rintro rfl
    obtain ⟨-, st', refused⟩ := null_refused resize (show (400 : BitVec 64).toNat ≠ 0 by decide) run
    have found : allocate blockSize 16 (align16 400)
        [⟨4096, 16, false⟩, ⟨4136, 208, false⟩, ⟨4368, 4194008, true⟩] = some (⟨4368, 400, false⟩,
          [⟨4096, 16, false⟩, ⟨4136, 208, false⟩, ⟨4368, 400, false⟩, ⟨4792, 4193584, true⟩]) := by
      decide
    obtain ⟨st'', granted, -⟩ := iso.malloc_some (by decide) (by decide) found
    have request : (Op.realloc 4120 400).request = 400 := rfl
    rw [request, granted] at refused
    have isNull : 4368 + blockSize = null := congrArg Prod.snd (Option.some.inj refused)
    exact absurd isNull (by decide)
  refine ⟨c₁, c₂, c₃, _, q', run₁, run₂, run₃, blocks, run₄, nonnull, ?_⟩
  have data : View.dataAt c₃.view 4120 = overwrite first 0 [1, 2, 3] := by simp [View.dataAt, view]
  have view : (⟨q', carried st.memory (overwrite first 0 [1, 2, 3]) q' 400⟩ : Allocation) ∈
      c₃.view.after st.memory q' (.realloc 4120 400) := by
    simp [View.after, null, show q' ≠ 0 from nonnull, data]
  have moved : bytesAt st.memory q' _ = _ := held _ view
  have length : (carried st.memory (overwrite first 0 [1, 2, 3]) q' 400).length = 400 := by
    simp [carried, overwrite, length, bytesAt_length]
  have start := bytesAt_take st.memory q' 400 3 (by decide)
  rw [length] at moved
  rw [moved] at start
  exact start.symm.trans (by simp [carried, overwrite])

end AxiomeToolchain.Guarantees.HeapIsolation
