import AxiomeToolchain.Source.HeapRuns

/-!
# A client that uses its allocations

The client's view of the heap: every live pointer with the bytes it may rely
on, as many as it last requested. `View.after` says how each call changes the
view; it reads memory only for bytes the client never wrote (those of malloc
and the new tail of realloc), which count as written once they are handed out.
-/

set_option autoImplicit false

namespace AxiomeToolchain.Source.Heap
open AxiomeToolchain.Library.ByteMemory
open AxiomeToolchain.Library.CInt
open AxiomeToolchain.Library.Tiling
open AxiomeToolchain.Library.FirstFit
open AxiomeToolchain.Library.Runs
open AxiomeToolchain.Source.StringCopy

structure Allocation where
  ptr : Nat
  data : List UInt8

abbrev View := List Allocation

structure Tenant where
  state : State
  view : View

inductive Op where
  | malloc (n : BitVec 64)
  | calloc (nmemb size : BitVec 64)
  | realloc (p : Nat) (n : BitVec 64)
  | free (p : Nat)
  | write (p offset : Nat) (bytes : List UInt8)

def View.pointers (view : View) : List Nat := view.map Allocation.ptr

def View.remove (view : View) (p : Nat) : View := view.filter (fun a => a.ptr ≠ p)

/-- The bytes the client holds at `p`. -/
def View.dataAt (view : View) (p : Nat) : List UInt8 :=
  ((view.find? (fun a => a.ptr = p)).map Allocation.data).getD []

/-- Replace the bytes from `offset` on. -/
def overwrite (data : List UInt8) (offset : Nat) (bytes : List UInt8) : List UInt8 :=
  data.take offset ++ bytes ++ data.drop (offset + bytes.length)

def View.overwrite (view : View) (p offset : Nat) (bytes : List UInt8) : View :=
  view.map (fun a => if a.ptr = p then { a with data := Heap.overwrite a.data offset bytes } else a)

/-- What realloc promises for `n` bytes at `q`: the old bytes as far as both
sizes go, then the bytes memory happens to hold. -/
def carried (m : Memory) (old : List UInt8) (q n : Nat) : List UInt8 :=
  old.take n ++ bytesAt m (q + min old.length n) (n - old.length)

/-- The view after a call that returned `q` with memory `m`. -/
def View.after (view : View) (m : Memory) (q : Nat) : Op → View
  | .malloc n => if q = null then view else ⟨q, bytesAt m q n.toNat⟩ :: view
  | .calloc nmemb size =>
    if q = null then view else ⟨q, List.replicate (nmemb.toNat * size.toNat) 0⟩ :: view
  | .realloc p n =>
    if p = null then (if q = null then view else ⟨q, bytesAt m q n.toNat⟩ :: view)
    else if n.toNat = 0 then view.remove p
    else if q = null then view
    else ⟨q, carried m (view.dataAt p) q n.toNat⟩ :: view.remove p
  | .free p => view.remove p
  | .write p offset bytes => view.overwrite p offset bytes

/-- The call itself: the new state and the pointer it returns (NULL for none). -/
def Op.run (site : Site) (st : State) : Op → Option (State × Nat)
  | .malloc n => Heap.malloc site st n.toNat
  | .calloc nmemb size => Heap.calloc site st nmemb.toNat size.toNat
  | .realloc p n => Heap.realloc site st p n.toNat
  | .free p => (Heap.free st p).map (fun st => (st, null))
  | .write p offset bytes =>
    some ({ st with memory := writeBytes st.memory (p + offset) bytes }, null)

def Tenant.step (site : Site) (c : Tenant) (op : Op) : Option (Tenant × Nat) :=
  (op.run site c.state).map (fun (st, q) => (⟨st, c.view.after st.memory q op⟩, q))

/-- The largest request whose rounding does not wrap. -/
def maxRequest : Nat := 2 ^ 64 - 16

def Op.allowed (c : Tenant) : Op → Prop
  | .malloc n => 1 ≤ n.toNat ∧ n.toNat ≤ maxRequest
  | .calloc nmemb size => 1 ≤ nmemb.toNat * size.toNat ∧ nmemb.toNat * size.toNat ≤ maxRequest
  | .realloc p n => (p = null ∨ p ∈ c.view.pointers) ∧ n.toNat ≤ maxRequest
  | .free p => p = null ∨ p ∈ c.view.pointers
  | .write p offset bytes =>
    ∃ a ∈ c.view, a.ptr = p ∧ offset + bytes.length ≤ a.data.length

def Tenant.initial (c : Tenant) : Prop :=
  c.state.heapInit = false ∧ c.state.freeList = null ∧ c.view = []

def tenants (site : Site) : System Tenant Op where
  initial := Tenant.initial
  allowed c op := op.allowed c
  step c op := (c.step site op).map Prod.fst

/-- The heap is `segs`, each allocation has a block in use with room for its
bytes, and memory holds these bytes. -/
structure Isolated (site : Site) (c : Tenant) (segs : List Segment) : Prop where
  inv : Inv site ⟨c.state, c.view.pointers⟩ segs
  sized : ∀ a ∈ c.view, ∃ s ∈ segs, s.free = false ∧ a.ptr = s.start + blockSize ∧
    a.data.length ≤ s.size
  held : ∀ a ∈ c.view, bytesAt c.state.memory a.ptr a.data.length = a.data

variable {site : Site} {c : Tenant} {st : State} {m : Memory} {n p q x lo hi : Nat} {op : Op}
  {a b : Allocation} {s t g : Segment} {segs out : List Segment} {view : View}

/-! ## Payload bytes, headers and other blocks -/

theorem payload_off_block (tiles : Tiles blockSize lo segs hi) (hs : s ∈ segs) (ht : t ∈ segs)
    (different : s ≠ t) : s.stop blockSize ≤ t.start ∨ t.stop blockSize ≤ s.start := by
  let R : Segment → Segment → Prop := fun s t =>
    s.stop blockSize ≤ t.start ∨ t.stop blockSize ≤ s.start
  have symmetric : Std.Symm R := ⟨fun _ _ => Or.symm⟩
  exact (tiles.pairwise.imp (S := R) Or.inl).forall hs ht different

theorem payload_off_headers (tiles : Tiles blockSize lo segs hi) (hs : s ∈ segs)
    (low : s.start + blockSize ≤ x) (high : x < s.stop blockSize) : OffHeaders segs x := by
  intro t ht
  by_cases same : s = t
  · subst same
    exact .inr low
  · rcases payload_off_block tiles hs ht same with below | above
    · exact .inl (by omega)
    · simp only [Segment.stop] at above
      exact .inr (by omega)

theorem Linked.readSize_eq (linked : Linked m p segs q) (member : s ∈ segs) :
    readSize m s.start = s.size := by
  induction segs generalizing p with
  | nil => simp at member
  | cons t rest ih =>
    obtain ⟨rfl, held, -, tail⟩ := linked
    rcases List.mem_cons.mp member with rfl | later
    · exact held
    · exact ih tail later

/-- The view's blocks are blocks in use of any later list that keeps them. -/
theorem sized_of_allocated (view : View) (out : List Segment)
    (sized : ∀ a ∈ view, ∃ s ∈ segs, s.free = false ∧ a.ptr = s.start + blockSize ∧
      a.data.length ≤ s.size)
    (keep : ∀ s ∈ allocated segs, s.start + blockSize ∈ view.pointers → s ∈ allocated out) :
    ∀ a ∈ view, ∃ s ∈ out, s.free = false ∧ a.ptr = s.start + blockSize ∧
      a.data.length ≤ s.size := by
  intro a member
  obtain ⟨s, in_list, used, at_s, room⟩ := sized a member
  have pointer : s.start + blockSize ∈ view.pointers := at_s ▸ List.mem_map_of_mem member
  have kept := keep s (mem_allocated.mpr ⟨in_list, used⟩) pointer
  exact ⟨s, (mem_allocated.mp kept).1, used, at_s, room⟩

theorem Isolated.ready (iso : Isolated site c segs) (member : a ∈ c.view) :
    c.state.heapInit = true :=
  iso.inv.ready (List.ne_nil_of_mem (List.mem_map_of_mem member))

theorem Isolated.represents (iso : Isolated site c segs) (member : a ∈ c.view) :
    Represents site c.state.memory c.state.freeList segs :=
  (heapAt_of_init (iso.ready member)).mp iso.inv.heap

/-- Payloads stay as they are when memory changes nowhere in them. -/
theorem held_of_same {m' : Memory} (iso : Isolated site c segs)
    (same : ∀ a ∈ c.view, ∀ x, a.ptr ≤ x → x < a.ptr + a.data.length → m' x = c.state.memory x) :
    ∀ a ∈ c.view, bytesAt m' a.ptr a.data.length = a.data := fun a member =>
  (bytesAt_congr _ _ (same a member)).trans (iso.held a member)

theorem Isolated.initial (start : c.initial) : Isolated site c [initialSegment site] where
  inv := Inv.initial ⟨start.1, start.2.1, by simp [start.2.2, View.pointers]⟩
  sized := by simp [start.2.2]
  held := by simp [start.2.2]

/-! ## What malloc, free and a write do to a tenant -/

/-- A malloc that returns NULL touches no payload and leaves the list as it is. -/
theorem Isolated.malloc_null (iso : Isolated site c segs)
    (refused : n = 0 ∨ allocate blockSize 16 (align16 n) segs = none) :
    ∃ st, malloc site c.state n = some (st, null) ∧ Isolated site ⟨st, c.view⟩ segs ∧
      ∀ a ∈ c.view, ∀ x, st.memory x = c.state.memory x := by
  obtain ⟨st, run, inv⟩ := iso.inv.malloc_null refused
  have same : ∀ a ∈ c.view, ∀ x, st.memory x = c.state.memory x := by
    intro a member x
    by_cases zero : n = 0
    · subst zero
      cases run
      rfl
    · have plain := malloc_refused iso.inv.heap zero (refused.resolve_left zero)
      rw [run, initHeap_of_init (iso.ready member)] at plain
      cases plain
      rfl
  have held := held_of_same iso (fun a member x _ _ => same a member x)
  exact ⟨st, run, ⟨inv, iso.sized, held⟩, same⟩

/-- A malloc that succeeds adds an allocation and touches no other payload. -/
theorem Isolated.malloc_some (iso : Isolated site c segs) (nonzero : n ≠ 0) (small : n ≤ maxRequest)
    (found : allocate blockSize 16 (align16 n) segs = some (g, out)) :
    ∃ st, malloc site c.state n = some (st, g.start + blockSize) ∧
      Isolated site ⟨st, ⟨g.start + blockSize, bytesAt st.memory (g.start + blockSize) n⟩ :: c.view⟩
        out ∧
      ∀ a ∈ c.view, ∀ x, a.ptr ≤ x → x < a.ptr + a.data.length → st.memory x = c.state.memory x := by
  obtain ⟨m', run, rep, s, in_list, isFree, -, frame⟩ := malloc_granted iso.inv.heap nonzero found
  obtain ⟨st, run', inv⟩ := iso.inv.malloc_some nonzero found
  rw [run] at run'
  cases run'
  -- Only the free block that is taken changes, and a payload lies in another block.
  have same : ∀ a ∈ c.view, ∀ x, a.ptr ≤ x → x < a.ptr + a.data.length →
      m' x = c.state.memory x := by
    intro a member x low high
    obtain ⟨t, in_segs, used, at_t, room⟩ := iso.sized a member
    have apart := payload_off_block iso.inv.heap.tiles in_segs in_list
      (fun equal => by rw [equal, isFree] at used; cases used)
    simp only [Segment.stop] at apart frame
    rw [frame x (by omega), initHeap_of_init (iso.ready member)]
  obtain ⟨large, used, in_out⟩ := allocate_grant found
  obtain ⟨left, right, before, after⟩ := allocate_allocated found
  have enough : n ≤ align16 n := align16_ge (by unfold maxRequest at small; unfold wordModulus; omega)
  refine ⟨_, run, ⟨inv, ?_, ?_⟩, same⟩
  · intro a member
    rcases List.mem_cons.mp member with rfl | old
    · exact ⟨g, in_out, used, rfl, by simp only [bytesAt_length]; omega⟩
    · refine sized_of_allocated c.view _ iso.sized (fun t kept _ => ?_) a old
      rw [before] at kept
      rw [after]
      rcases List.mem_append.mp kept with low | high
      · exact List.mem_append_left _ low
      · exact List.mem_append_right _ (List.mem_cons_of_mem g high)
  · intro a member
    rcases List.mem_cons.mp member with rfl | old
    · simp only [bytesAt_length]
    · exact held_of_same iso same a old

theorem overwrite_length (data : List UInt8) (offset : Nat) (bytes : List UInt8)
    (inside : offset + bytes.length ≤ data.length) :
    (overwrite data offset bytes).length = data.length := by
  simp only [overwrite, List.length_append, List.length_take, List.length_drop]
  omega

theorem Isolated.view_inj (iso : Isolated site c segs) (ha : a ∈ c.view) (hb : b ∈ c.view)
    (same : a.ptr = b.ptr) : a = b :=
  List.inj_on_of_nodup_map iso.inv.live_nodup ha hb same

/-- A write inside an allocation changes that allocation and no header. -/
theorem Isolated.write (iso : Isolated site c segs) (member : a ∈ c.view) (offset : Nat)
    (bytes : List UInt8) (inside : offset + bytes.length ≤ a.data.length) :
    Isolated site ⟨{ c.state with memory := writeBytes c.state.memory (a.ptr + offset) bytes },
        c.view.overwrite a.ptr offset bytes⟩ segs ∧
      ∀ s ∈ segs, ∀ x, s.start ≤ x → x < s.start + blockSize →
        writeBytes c.state.memory (a.ptr + offset) bytes x = c.state.memory x := by
  have rep := iso.represents member
  obtain ⟨s, in_segs, used, at_s, room⟩ := iso.sized a member
  have outside : ∀ x, x < a.ptr + offset ∨ a.ptr + offset + bytes.length ≤ x →
      writeBytes c.state.memory (a.ptr + offset) bytes x = c.state.memory x :=
    fun x off => writeBytes_frame bytes _ _ x off
  have headers : ∀ t ∈ segs, ∀ x, t.start ≤ x → x < t.start + blockSize →
      writeBytes c.state.memory (a.ptr + offset) bytes x = c.state.memory x := by
    intro t in_list x low high
    apply outside x
    by_contra within
    have off := payload_off_headers (x := x) rep.tiles in_segs (by omega)
      (by simp only [Segment.stop]; omega) t in_list
    omega
  have pointers : (c.view.overwrite a.ptr offset bytes).pointers = c.view.pointers := by
    simp only [View.overwrite, View.pointers, List.map_map]
    apply List.map_congr_left
    intro b _
    simp only [Function.comp_apply]
    split <;> rfl
  refine ⟨⟨⟨?_, iso.inv.separated, ?_, fun _ => iso.ready member⟩, ?_, ?_⟩, headers⟩
  · exact heapAt_mk (iso.ready member) ⟨rep.linked.congr headers, rep.tiles⟩
  · rw [pointers]
    exact iso.inv.live
  · intro b overwritten
    obtain ⟨b, original, rfl⟩ := List.mem_map.mp overwritten
    obtain ⟨t, in_list, used, at_t, room⟩ := iso.sized b original
    refine ⟨t, in_list, used, ?_, ?_⟩
    · split <;> exact at_t
    · split
      · next same =>
        rw [iso.view_inj original member same]
        simp only [overwrite_length _ _ _ inside]
        rwa [← iso.view_inj original member same]
      · exact room
  · intro b overwritten
    obtain ⟨b, original, rfl⟩ := List.mem_map.mp overwritten
    split
    · next same =>
      rw [iso.view_inj original member same]
      simp only [overwrite_length _ _ _ inside]
      rw [bytesAt_writeBytes_inside _ _ _ _ _ inside, iso.held a member]
      rfl
    · next different =>
      refine (bytesAt_congr _ _ (fun x low high => outside x ?_)).trans (iso.held b original)
      obtain ⟨t, in_list, -, at_t, room_t⟩ := iso.sized b original
      have apart := payload_off_block rep.tiles in_segs in_list
        (fun equal => different (by rw [at_t, at_s, equal]))
      simp only [Segment.stop] at apart
      omega

theorem View.pointers_remove (nodup : view.pointers.Nodup) :
    (view.remove p).pointers = view.pointers.erase p := by
  rw [nodup.erase_eq_filter]
  simp only [View.pointers, View.remove, List.filter_map]
  congr 1
  apply List.filter_congr
  intro a _
  rw [Bool.eq_iff_iff]
  simp

/-- free removes the allocation and touches no payload. -/
theorem Isolated.free (iso : Isolated site c segs) (member : p ∈ c.view.pointers) :
    ∃ st, free c.state p = some st ∧
      Isolated site ⟨st, c.view.remove p⟩ (release blockSize (p - blockSize) segs) ∧
      ∀ a ∈ c.view, ∀ x, a.ptr ≤ x → x < a.ptr + a.data.length → st.memory x = c.state.memory x := by
  obtain ⟨s, in_segs, used, rfl, st, run, inv⟩ := iso.inv.free_live member
  have ready : c.state.heapInit = true := iso.inv.ready (List.ne_nil_of_mem member)
  obtain ⟨m', run', -, frame⟩ := free_spec ready iso.inv.heap in_segs
  rw [run] at run'
  cases run'
  have same : ∀ a ∈ c.view, ∀ x, a.ptr ≤ x → x < a.ptr + a.data.length →
      m' x = c.state.memory x := by
    intro a in_view x low high
    obtain ⟨t, in_list, -, at_t, room⟩ := iso.sized a in_view
    exact frame x (payload_off_headers iso.inv.heap.tiles in_list (by omega)
      (by simp only [Segment.stop]; omega))
  rw [Nat.add_sub_cancel]
  refine ⟨_, run, ⟨?_, ?_, ?_⟩, same⟩
  · rw [View.pointers_remove iso.inv.live_nodup]
    exact inv
  · intro a kept
    obtain ⟨in_view, other⟩ := List.mem_filter.mp kept
    refine sized_of_allocated (c.view.remove (s.start + blockSize))
      (release blockSize s.start segs) (fun b kept => iso.sized b (List.mem_filter.mp kept).1) ?_ a kept
    intro t in_use pointer
    rw [release_allocated]
    refine List.mem_filter.mpr ⟨in_use, ?_⟩
    obtain ⟨b, kept, at_b⟩ := List.mem_map.mp pointer
    have different := (List.mem_filter.mp kept).2
    rw [at_b] at different
    simpa using different
  · intro a kept
    exact held_of_same iso same a (List.mem_filter.mp kept).1

/-! ## Steps of a tenant -/

theorem Isolated.step_granted {n : BitVec 64} (iso : Isolated site c segs) (g : Segment)
    (out : List Segment) (nonzero : n.toNat ≠ 0) (small : n.toNat ≤ maxRequest)
    (found : allocate blockSize 16 (align16 n.toNat) segs = some (g, out)) :
    ∃ st, c.step site (.malloc n) = some (⟨st, ⟨g.start + blockSize,
        bytesAt st.memory (g.start + blockSize) n.toNat⟩ :: c.view⟩, g.start + blockSize) ∧
      Isolated site ⟨st, ⟨g.start + blockSize,
        bytesAt st.memory (g.start + blockSize) n.toNat⟩ :: c.view⟩ out := by
  obtain ⟨st, run, after, -⟩ := iso.malloc_some nonzero small found
  have nonnull : g.start + blockSize ≠ null := after.inv.pointer_ne_null List.mem_cons_self
  refine ⟨st, ?_, after⟩
  simp only [Tenant.step, Op.run, run, Option.map_some, View.after, if_neg nonnull]

theorem Isolated.step_freed (iso : Isolated site c segs) (member : p ∈ c.view.pointers) :
    ∃ st, c.step site (.free p) = some (⟨st, c.view.remove p⟩, null) ∧
      Isolated site ⟨st, c.view.remove p⟩ (release blockSize (p - blockSize) segs) := by
  obtain ⟨st, run, after, -⟩ := iso.free member
  refine ⟨st, ?_, after⟩
  rw [Tenant.step, Op.run, run]
  rfl

def exampleTenant : Tenant := ⟨exampleStart.state, []⟩

theorem exampleTenant_isolated :
    Isolated exampleSite exampleTenant [initialSegment exampleSite] :=
  Isolated.initial ⟨rfl, rfl, rfl⟩

/-- malloc(100), malloc(200) and a free of the first leave a hole of 136 bytes. -/
theorem exampleTenant_hole : ∃ c₁ c₂ c₃,
    exampleTenant.step exampleSite (.malloc 100) = some (c₁, 4120) ∧
    c₁.step exampleSite (.malloc 200) = some (c₂, 4256) ∧
    c₂.step exampleSite (.free 4120) = some (c₃, null) ∧
    c₁.view.pointers = [4120] ∧ c₂.view.pointers = [4256, 4120] ∧ c₃.view.pointers = [4256] ∧
    Isolated exampleSite c₃ [⟨4096, 112, true⟩, ⟨4232, 208, false⟩, ⟨4464, 4193912, true⟩] := by
  obtain ⟨st, run, iso⟩ := exampleTenant_isolated.step_granted (n := 100) ⟨4096, 112, false⟩
    [⟨4096, 112, false⟩, ⟨4232, 4194144, true⟩] (by decide) (by decide) (by decide)
  obtain ⟨st', run', iso⟩ := iso.step_granted (n := 200) ⟨4232, 208, false⟩
    [⟨4096, 112, false⟩, ⟨4232, 208, false⟩, ⟨4464, 4193912, true⟩] (by decide) (by decide) (by decide)
  obtain ⟨st'', run'', iso⟩ := iso.step_freed (p := 4120)
    (List.mem_cons_of_mem _ List.mem_cons_self)
  exact ⟨_, _, _, run, run', run'', rfl, rfl, rfl, iso⟩

end AxiomeToolchain.Source.Heap
