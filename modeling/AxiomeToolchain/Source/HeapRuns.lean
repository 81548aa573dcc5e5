import AxiomeToolchain.Library.Runs
import AxiomeToolchain.Source.HeapSpec

/-!
# Runs of malloc and free

A client holds the pointers malloc returned to it and that it has not freed
since. It may call malloc with any `size_t`, and free with NULL or a pointer it
holds. `Inv` is what every such run keeps; one lemma says what each call does.
-/

set_option autoImplicit false

namespace AxiomeToolchain.Source.Heap
open AxiomeToolchain.Library.Tiling
open AxiomeToolchain.Library.FirstFit
open AxiomeToolchain.Library.Runs

structure Client where
  state : State
  live : List Nat

inductive Call where
  | malloc (n : BitVec 64)
  | free (p : Nat)
  deriving DecidableEq, Repr

def Call.allowed (c : Client) : Call → Prop
  | .malloc _ => True
  | .free p => p = null ∨ p ∈ c.live

def Client.step (site : Site) (c : Client) : Call → Option Client
  | .malloc n =>
    (Heap.malloc site c.state n.toNat).map
      (fun (s, p) => ⟨s, if p = null then c.live else p :: c.live⟩)
  | .free p =>
    (Heap.free c.state p).map (fun s => ⟨s, if p = null then c.live else c.live.erase p⟩)

/-- The client starts with the static initial values; the memory may hold anything. -/
def Client.initial (c : Client) : Prop :=
  c.state.heapInit = false ∧ c.state.freeList = null ∧ c.live = []

def clients (site : Site) : System Client Call where
  initial := Client.initial
  allowed := Call.allowed
  step := Client.step site

/-- The heap is the separated list `segs`, whose blocks in use are the live pointers. -/
structure Inv (site : Site) (c : Client) (segs : List Segment) : Prop where
  heap : HeapAt site c.state segs
  separated : Separated segs
  live : c.live.Perm ((allocated segs).map (fun s => s.start + blockSize))
  ready : c.live ≠ [] → c.state.heapInit = true

variable {site : Site} {c c' : Client} {st : State} {n p : Nat} {call : Call} {s t g : Segment}
  {segs out : List Segment} {live : List Nat}

theorem HeapAt.start_pos (heap : HeapAt site st segs) (member : s ∈ segs) : 0 < s.start :=
  (tiles_in_range (Nat.le_refl site.base) (Nat.le_refl _) heap.tiles member).1

theorem HeapAt.pointers_nodup (heap : HeapAt site st segs) :
    ((allocated segs).map (fun s => s.start + blockSize)).Nodup := by
  refine List.Nodup.map_on ?_ ?_
  · intro s hs t ht same
    exact heap.tiles.start_inj blockSize_pos (mem_allocated.mp hs).1 (mem_allocated.mp ht).1
      (by simpa using same)
  · refine (heap.tiles.pairwise.imp ?_).filter _
    rintro s t below rfl
    simp only [Segment.stop, blockSize] at below
    omega

theorem Inv.live_nodup (inv : Inv site c segs) : c.live.Nodup :=
  inv.live.nodup_iff.mpr inv.heap.pointers_nodup

/-- A live pointer is the payload of a block in use. -/
theorem Inv.block_of_live (inv : Inv site c segs) (member : p ∈ c.live) :
    ∃ s ∈ segs, s.free = false ∧ p = s.start + blockSize := by
  obtain ⟨s, used, rfl⟩ := List.mem_map.mp (inv.live.mem_iff.mp member)
  exact ⟨s, (mem_allocated.mp used).1, (mem_allocated.mp used).2, rfl⟩

theorem Inv.initial (start : c.initial) : Inv site c [initialSegment site] where
  heap := heapAt_fresh start.1
  separated := List.isChain_singleton _
  live := by simp [start.2.2, allocated, initialSegment]
  ready := fun nonempty => absurd start.2.2 nonempty

/-- malloc returns NULL: for 0, or when no free block is large enough. -/
theorem Inv.malloc_null (inv : Inv site c segs)
    (refused : n = 0 ∨ allocate blockSize 16 (align16 n) segs = none) :
    ∃ st, malloc site c.state n = some (st, null) ∧ Inv site ⟨st, c.live⟩ segs := by
  by_cases zero : n = 0
  · subst zero
    exact ⟨c.state, malloc_zero site c.state, inv⟩
  · refine ⟨_, malloc_refused inv.heap zero (refused.resolve_left zero), ?_, inv.separated, inv.live,
      fun _ => initHeap_heapInit site c.state⟩
    exact heapAt_mk (initHeap_heapInit site c.state) inv.heap

/-- malloc returns the payload of the block that first fit takes. -/
theorem Inv.malloc_some (inv : Inv site c segs) (nonzero : n ≠ 0)
    (found : allocate blockSize 16 (align16 n) segs = some (g, out)) :
    ∃ st, malloc site c.state n = some (st, g.start + blockSize) ∧
      Inv site ⟨st, (g.start + blockSize) :: c.live⟩ out := by
  obtain ⟨m', run, rep, -⟩ := malloc_granted inv.heap nonzero found
  obtain ⟨left, right, before, after⟩ := allocate_allocated found
  refine ⟨_, run, heapAt_mk (initHeap_heapInit site c.state) rep,
    allocate_separated found inv.separated, ?_, fun _ => initHeap_heapInit site c.state⟩
  have grown : ((g.start + blockSize) :: c.live).Perm
      ((g :: allocated segs).map (fun s => s.start + blockSize)) := inv.live.cons _
  rw [before] at grown
  rw [after]
  exact grown.trans (List.perm_middle.symm.map _)

/-- free of a live pointer releases its block. -/
theorem Inv.free_live (inv : Inv site c segs) (member : p ∈ c.live) :
    ∃ s ∈ segs, s.free = false ∧ p = s.start + blockSize ∧
      ∃ st, free c.state p = some st ∧
        Inv site ⟨st, c.live.erase p⟩ (release blockSize s.start segs) := by
  obtain ⟨s, in_list, used, rfl⟩ := inv.block_of_live member
  have ready := inv.ready (List.ne_nil_of_mem member)
  obtain ⟨m', run, rep, -⟩ := free_spec ready inv.heap in_list
  refine ⟨s, in_list, used, rfl, _, run, ?_, release_separated, ?_, fun _ => ready⟩
  · exact heapAt_mk ready rep
  · refine (inv.live.erase _).trans (List.Perm.of_eq ?_)
    rw [inv.heap.pointers_nodup.erase_eq_filter, List.filter_map, release_allocated]
    congr 1
    apply List.filter_congr
    intro t _
    rw [Bool.eq_iff_iff]
    simp

theorem Inv.pointer_ne_null (inv : Inv site c segs) (member : p ∈ c.live) : p ≠ null := by
  obtain ⟨s, in_list, -, rfl⟩ := inv.block_of_live member
  have := inv.heap.start_pos in_list
  unfold null
  omega

theorem Inv.step_granted {n : BitVec 64} (inv : Inv site c segs) (g : Segment) (out : List Segment)
    (nonzero : n.toNat ≠ 0) (found : allocate blockSize 16 (align16 n.toNat) segs = some (g, out)) :
    ∃ st, c.step site (.malloc n) = some ⟨st, (g.start + blockSize) :: c.live⟩ ∧
      Inv site ⟨st, (g.start + blockSize) :: c.live⟩ out := by
  obtain ⟨st, run, inv'⟩ := inv.malloc_some nonzero found
  have fresh := inv'.pointer_ne_null List.mem_cons_self
  exact ⟨st, by simp [Client.step, run, fresh], inv'⟩

theorem Inv.step_freed (inv : Inv site c segs) (member : p ∈ c.live) :
    ∃ st, c.step site (.free p) = some ⟨st, c.live.erase p⟩ ∧
      Inv site ⟨st, c.live.erase p⟩ (release blockSize (p - blockSize) segs) := by
  have nonnull := inv.pointer_ne_null member
  obtain ⟨s, -, -, rfl, st, run, inv'⟩ := inv.free_live member
  exact ⟨st, by simp [Client.step, run, nonnull], by rwa [Nat.add_sub_cancel]⟩

/-- Every allowed call returns, and leaves a heap of the same form. -/
theorem Inv.step (inv : Inv site c segs) (ok : call.allowed c) :
    ∃ c' out, c.step site call = some c' ∧ Inv site c' out := by
  cases call with
  | malloc n =>
    by_cases refused : n.toNat = 0 ∨ allocate blockSize 16 (align16 n.toNat) segs = none
    · obtain ⟨st, run, inv'⟩ := inv.malloc_null refused
      exact ⟨⟨st, c.live⟩, segs, by simp [Client.step, run], inv'⟩
    · obtain ⟨nonzero, some_found⟩ := not_or.mp refused
      obtain ⟨⟨g, out⟩, found⟩ := Option.ne_none_iff_exists'.mp some_found
      obtain ⟨st, run, inv'⟩ := inv.step_granted g out nonzero found
      exact ⟨_, out, run, inv'⟩
  | free p =>
    by_cases isNull : p = null
    · subst isNull
      exact ⟨c, segs, by simp [Client.step, free_null], inv⟩
    · obtain ⟨st, run, inv'⟩ := inv.step_freed (ok.resolve_left isNull)
      exact ⟨_, _, run, inv'⟩

theorem reachable_inv (reach : Reachable (clients site) c) : ∃ segs, Inv site c segs := by
  refine reach.invariant (P := fun c => ∃ segs, Inv site c segs) ?_ ?_
  · exact fun c start => ⟨_, Inv.initial start⟩
  · rintro c call c' ⟨segs, inv⟩ ok ret
    obtain ⟨d, out, run, inv'⟩ := inv.step ok
    have same : d = c' := Option.some.inj (run.symm.trans ret)
    exact ⟨out, same ▸ inv'⟩

/-- Every allowed call returns in every reachable state. -/
theorem reachable_returns (reach : Reachable (clients site) c) (ok : call.allowed c) :
    ∃ c', c.step site call = some c' := by
  obtain ⟨segs, inv⟩ := reachable_inv reach
  obtain ⟨c', -, run, -⟩ := inv.step ok
  exact ⟨c', run⟩

/-- The client after the calls, if each of them returns. -/
def Client.steps (site : Site) (c : Client) (calls : List Call) : Option Client :=
  calls.foldlM (Client.step site) c

theorem Client.steps_snoc {calls : List Call} (before : c.steps site calls = some c')
    (call : Call) : c.steps site (calls ++ [call]) = c'.step site call := by
  rw [steps] at before ⊢
  rw [List.foldlM_append, before]
  simp

/-- A heap array at address 4096, before the first call. -/
def exampleSite : Site := ⟨4096, by decide, by decide⟩

def exampleStart : Client := ⟨⟨fun _ => 0, false, null, 0⟩, []⟩

theorem exampleStart_reachable : Reachable (clients exampleSite) exampleStart :=
  .initial ⟨rfl, rfl, rfl⟩

/-- A heap with two blocks in use. -/
theorem example_two : ∃ c, exampleStart.steps exampleSite [.malloc 100, .malloc 200] = some c ∧
    Reachable (clients exampleSite) c ∧ c.live = [4256, 4120] ∧
    Inv exampleSite c [⟨4096, 112, false⟩, ⟨4232, 208, false⟩, ⟨4464, 4193912, true⟩] := by
  have inv : Inv exampleSite exampleStart [initialSegment exampleSite] := Inv.initial ⟨rfl, rfl, rfl⟩
  obtain ⟨st, run, inv⟩ := inv.step_granted (n := 100) ⟨4096, 112, false⟩
    [⟨4096, 112, false⟩, ⟨4232, 4194144, true⟩] (by decide) (by decide)
  have none : exampleStart.steps exampleSite [] = some exampleStart := rfl
  have once := (Client.steps_snoc none _).trans run
  have reach := exampleStart_reachable.next (.malloc 100) trivial run
  obtain ⟨st', run', inv⟩ := inv.step_granted (n := 200) ⟨4232, 208, false⟩
    [⟨4096, 112, false⟩, ⟨4232, 208, false⟩, ⟨4464, 4193912, true⟩] (by decide) (by decide)
  exact ⟨_, (Client.steps_snoc once _).trans run', reach.next (.malloc 200) trivial run',
    rfl, inv⟩

/-- The first of them freed: a hole of 136 bytes below the other. -/
theorem example_hole : ∃ c,
    exampleStart.steps exampleSite [.malloc 100, .malloc 200, .free 4120] = some c ∧
    Reachable (clients exampleSite) c ∧ c.live = [4256] ∧
    Inv exampleSite c [⟨4096, 112, true⟩, ⟨4232, 208, false⟩, ⟨4464, 4193912, true⟩] := by
  obtain ⟨c, run, reach, live, inv⟩ := example_two
  have member : 4120 ∈ c.live := by simp [live]
  obtain ⟨st, run', inv'⟩ := inv.step_freed member
  exact ⟨_, (Client.steps_snoc run _).trans run', reach.next (.free 4120) (.inr member) run',
    by rw [live]; rfl, inv'⟩

end AxiomeToolchain.Source.Heap
