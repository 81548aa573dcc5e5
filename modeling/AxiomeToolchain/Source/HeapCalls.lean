import AxiomeToolchain.Source.HeapClient

/-!
# Every call keeps the client's bytes

One lemma for each of malloc, calloc, realloc, free and a client write: the call
returns, its new view is a view of the new heap, and a request that gets NULL
leaves blocks and payloads as they were. realloc is the long one: in place it
keeps the block, otherwise it is malloc, a copy into the fresh allocation and a
free of the old one.
-/

set_option autoImplicit false

namespace AxiomeToolchain.Source.Heap
open AxiomeToolchain.Library.ByteMemory
open AxiomeToolchain.Library.CInt
open AxiomeToolchain.Library.Tiling
open AxiomeToolchain.Library.FirstFit
open AxiomeToolchain.Library.Runs
open AxiomeToolchain.Source.StringCopy

variable {site : Site} {c c' : Tenant} {st : State} {m : Memory} {n p q : Nat} {op : Op}
  {a b : Allocation} {s : Segment} {segs out : List Segment} {view : View}

/-- The calls that ask for memory. -/
def Op.requests : Op → Prop
  | .malloc _ | .calloc _ _ => True
  | .realloc _ n => n.toNat ≠ 0
  | .free _ | .write _ _ _ => False

/-- What a call that asks for memory and gets NULL leaves as it was. -/
structure Untouched (site : Site) (c : Tenant) (st : State) (view : View) : Prop where
  blocks : blockList site st = blockList site c.state
  allocations : view = c.view
  payloads : ∀ a ∈ c.view, ∀ x, a.ptr ≤ x → x < a.ptr + a.data.length → st.memory x = c.state.memory x

/-- A call returns, the new view is again a view of the heap, and a refused
request changes nothing. -/
def StepOk (site : Site) (c : Tenant) (op : Op) : Prop :=
  ∃ st q segs, op.run site c.state = some (st, q) ∧
    Isolated site ⟨st, c.view.after st.memory q op⟩ segs ∧
    (q = null → op.requests → Untouched site c st (c.view.after st.memory q op))

theorem Isolated.pointer_ne_null (iso : Isolated site c segs) (member : p ∈ c.view.pointers) :
    p ≠ null :=
  iso.inv.pointer_ne_null member

theorem Isolated.untouched {st : State} (iso : Isolated site c segs)
    (after : Isolated site ⟨st, c.view⟩ segs)
    (same : ∀ a ∈ c.view, ∀ x, st.memory x = c.state.memory x) : Untouched site c st c.view where
  blocks := (blockList_eq after.inv.heap).trans (blockList_eq iso.inv.heap).symm
  allocations := rfl
  payloads := fun a member x _ _ => same a member x

/-- malloc against the view, for the callers that pass it on. -/
theorem Isolated.malloc_cases (iso : Isolated site c segs) (small : n ≤ maxRequest) (nonzero : n ≠ 0) :
    (∃ st, malloc site c.state n = some (st, null) ∧ Isolated site ⟨st, c.view⟩ segs ∧
      Untouched site c st c.view) ∨
    (∃ st q out, malloc site c.state n = some (st, q) ∧ q ≠ null ∧ q ∉ c.view.pointers ∧
      Isolated site ⟨st, ⟨q, bytesAt st.memory q n⟩ :: c.view⟩ out ∧
      (∀ s ∈ segs, s.free = false → s ∈ out) ∧
      ∀ a ∈ c.view, ∀ x, a.ptr ≤ x → x < a.ptr + a.data.length →
        st.memory x = c.state.memory x) := by
  cases found : allocate blockSize 16 (align16 n) segs with
  | none =>
    obtain ⟨st, run, after, same⟩ := iso.malloc_null (.inr found)
    exact .inl ⟨st, run, after, iso.untouched after same⟩
  | some grant =>
    obtain ⟨g, out⟩ := grant
    obtain ⟨st, run, after, same⟩ := iso.malloc_some nonzero small found
    have nodup : ((g.start + blockSize) :: c.view.pointers).Nodup := after.inv.live_nodup
    obtain ⟨left, right, before, kept⟩ := allocate_allocated found
    refine .inr ⟨st, _, out, run, after.pointer_ne_null List.mem_cons_self,
      (List.nodup_cons.mp nodup).1, after, fun s member used => ?_, same⟩
    have in_use := mem_allocated.mpr ⟨member, used⟩
    rw [before] at in_use
    refine (mem_allocated.mp ?_).1
    rw [kept]
    rcases List.mem_append.mp in_use with low | high
    · exact List.mem_append_left _ low
    · exact List.mem_append_right _ (List.mem_cons_of_mem g high)

theorem Isolated.malloc_ok (iso : Isolated site c segs) (n : BitVec 64)
    (ok : (Op.malloc n).allowed c) : StepOk site c (.malloc n) := by
  rcases iso.malloc_cases ok.2 (by have := ok.1; omega) with
    ⟨st, run, after, untouched⟩ | ⟨st, q, out, run, nonnull, -, after, -, -⟩
  · exact ⟨st, null, segs, run, after, fun _ _ => untouched⟩
  · refine ⟨st, q, out, run, ?_, fun isNull => absurd isNull nonnull⟩
    simpa only [View.after, if_neg nonnull] using after

/-- Writing into the newest allocation leaves the others in the view alone. -/
theorem overwrite_head (a : Allocation) (view : View) (offset : Nat) (bytes : List UInt8)
    (fresh : a.ptr ∉ view.pointers) :
    View.overwrite (a :: view) a.ptr offset bytes =
      { a with data := overwrite a.data offset bytes } :: view := by
  have rest : View.overwrite view a.ptr offset bytes = view := by
    refine (List.map_congr_left (fun b member => ?_)).trans (List.map_id view)
    have different : b.ptr ≠ a.ptr := fun equal => fresh (equal ▸ List.mem_map_of_mem member)
    simp [different]
  simp only [View.overwrite] at rest ⊢
  rw [List.map_cons, rest, if_pos rfl]

/-- calloc's check passes exactly the products that fit. -/
theorem check_passes_iff {nmemb size : Nat} (size_pos : 0 < size) :
    ¬ nmemb > (wordModulus - 1) / size ↔ nmemb * size < wordModulus := by
  rw [gt_iff_lt, Nat.not_lt, Nat.le_div_iff_mul_le size_pos]
  exact (Nat.lt_iff_le_pred (by decide)).symm

/-- calloc of a product that fits is malloc of it, and zeroing. -/
theorem run_calloc (st : State) {nmemb size : BitVec 64} (low : 0 < nmemb.toNat * size.toNat)
    (fits : nmemb.toNat * size.toNat < wordModulus) :
    (Op.calloc nmemb size).run site st =
      (malloc site st (nmemb.toNat * size.toNat)).map (fun (st, p) =>
        if p ≠ null then
          ({ st with memory := memset st.memory p 0 (nmemb.toNat * size.toNat) }, p)
        else (st, p)) := by
  have size_pos : 0 < size.toNat := Nat.pos_of_mul_pos_left low
  have some_members : ¬ (nmemb.toNat = 0 ∨ size.toNat = 0) := by
    rintro (zero | zero) <;> simp [zero] at low
  have no_overflow : ¬ nmemb.toNat > (wordModulus - 1) / size.toNat :=
    (check_passes_iff size_pos).mpr fits
  simp only [Op.run, calloc, if_neg some_members, if_neg no_overflow, u64Mul_of_lt fits]

theorem run_calloc_zero (st : State) {nmemb size : BitVec 64}
    (zero : nmemb.toNat * size.toNat = 0) : (Op.calloc nmemb size).run site st = some (st, null) := by
  simp only [Op.run, calloc, if_pos (Nat.mul_eq_zero.mp zero)]

theorem run_calloc_overflow (st : State) {nmemb size : BitVec 64}
    (large : wordModulus ≤ nmemb.toNat * size.toNat) :
    (Op.calloc nmemb size).run site st = some ({ st with errno := enomem }, null) := by
  have low : 0 < nmemb.toNat * size.toNat := Nat.lt_of_lt_of_le (by decide) large
  have some_members : ¬ (nmemb.toNat = 0 ∨ size.toNat = 0) :=
    fun empty => low.ne' (Nat.mul_eq_zero.mpr empty)
  have overflow : nmemb.toNat > (wordModulus - 1) / size.toNat :=
    not_imp_comm.mp (check_passes_iff (Nat.pos_of_mul_pos_left low)).mp (Nat.not_lt.mpr large)
  simp only [Op.run, calloc, if_neg some_members, if_pos overflow]

theorem Isolated.calloc_ok (iso : Isolated site c segs) (nmemb size : BitVec 64)
    (ok : (Op.calloc nmemb size).allowed c) : StepOk site c (.calloc nmemb size) := by
  obtain ⟨low, high⟩ := ok
  have fits : nmemb.toNat * size.toNat < wordModulus := Nat.lt_of_le_of_lt high (by decide)
  rcases iso.malloc_cases high (by omega) with
    ⟨st, run, after, untouched⟩ | ⟨st, q, out, run, nonnull, fresh, after, -, -⟩
  · refine ⟨st, null, segs, ?_, after, fun _ _ => untouched⟩
    rw [run_calloc c.state low fits, run]
    rfl
  · have zeros := (after.write List.mem_cons_self 0
      (List.replicate (nmemb.toNat * size.toNat) 0) (by simp)).1
    rw [overwrite_head _ _ _ _ fresh] at zeros
    refine ⟨{ st with memory := memset st.memory q 0 (nmemb.toNat * size.toNat) }, q, out, ?_, ?_,
      fun isNull => absurd isNull nonnull⟩
    · rw [run_calloc c.state low fits, run]
      simp only [Option.map_some, ne_eq, nonnull, not_false_eq_true, if_true]
    · have all_zero : Heap.overwrite (bytesAt st.memory q (nmemb.toNat * size.toNat)) 0
          (List.replicate (nmemb.toNat * size.toNat) 0) =
          List.replicate (nmemb.toNat * size.toNat) 0 := by
        simp [overwrite]
      rw [memset_eq, show UInt8.ofInt 0 = 0 from rfl]
      simp only [all_zero, Nat.add_zero] at zeros
      simpa only [View.after, if_neg nonnull] using zeros

theorem View.dataAt_of_mem {view : View} (nodup : view.pointers.Nodup) (member : a ∈ view) :
    view.dataAt a.ptr = a.data := by
  induction view with
  | nil => simp at member
  | cons b rest ih =>
    obtain ⟨fresh, nodup⟩ :=
      List.nodup_cons.mp (show (b.ptr :: rest.map Allocation.ptr).Nodup from nodup)
    rcases List.mem_cons.mp member with rfl | later
    · simp [View.dataAt]
    · have different : b.ptr ≠ a.ptr := fun equal => fresh (equal ▸ List.mem_map_of_mem later)
      have inner := ih nodup later
      simp only [View.dataAt] at inner ⊢
      rw [List.find?_cons_of_neg (by simpa using different), inner]

/-- Bytes that start with the carried part are what realloc promises. -/
theorem carried_eq (m : Memory) (old : List UInt8) (q n : Nat)
    (kept : bytesAt m q (min old.length n) = old.take n) : carried m old q n = bytesAt m q n := by
  have split : n = min old.length n + (n - old.length) := by omega
  rw [carried, ← kept, ← bytesAt_add, ← split]

theorem Isolated.mem_view (member : p ∈ c.view.pointers) : ∃ a ∈ c.view, a.ptr = p :=
  List.mem_map.mp member

theorem View.remove_absent (absent : p ∉ view.pointers) : view.remove p = view := by
  apply List.filter_eq_self.mpr
  intro a member
  have different : a.ptr ≠ p := fun equal => absent (equal ▸ List.mem_map_of_mem member)
  simpa using different

theorem View.remove_cons_ne (different : a.ptr ≠ p) :
    View.remove (a :: view) p = a :: view.remove p :=
  List.filter_cons_of_pos (by simpa using different)

/-- The view with one allocation replaced by a shorter or longer one of the same block. -/
theorem Isolated.resize (iso : Isolated site c segs) (member : a ∈ c.view) (in_segs : s ∈ segs)
    (at_s : a.ptr = s.start + blockSize) (room : n ≤ s.size) :
    Isolated site ⟨c.state, ⟨a.ptr, bytesAt c.state.memory a.ptr n⟩ :: c.view.remove a.ptr⟩ segs := by
  have pointer : a.ptr ∈ c.view.pointers := List.mem_map_of_mem member
  have pointers : View.pointers (⟨a.ptr, bytesAt c.state.memory a.ptr n⟩ :: c.view.remove a.ptr) =
      a.ptr :: c.view.pointers.erase a.ptr := by
    rw [← View.pointers_remove iso.inv.live_nodup]
    rfl
  refine ⟨⟨iso.inv.heap, iso.inv.separated, ?_, fun _ => iso.ready member⟩, ?_, ?_⟩
  · rw [pointers]
    exact (List.perm_cons_erase pointer).symm.trans iso.inv.live
  · intro b kept
    rcases List.mem_cons.mp kept with rfl | old
    · obtain ⟨t, in_list, used, at_t, -⟩ := iso.sized a member
      have same : t = s := iso.inv.heap.tiles.start_inj blockSize_pos in_list in_segs (by omega)
      subst same
      exact ⟨t, in_list, used, at_t, by simpa only [bytesAt_length] using room⟩
    · exact iso.sized b (List.mem_filter.mp old).1
  · intro b kept
    rcases List.mem_cons.mp kept with rfl | old
    · simp only [bytesAt_length]
    · exact iso.held b (List.mem_filter.mp old).1

/-- The block is large enough: realloc returns the same pointer. -/
theorem Isolated.realloc_in_place (iso : Isolated site c segs) (member : a ∈ c.view)
    (in_segs : s ∈ segs) (at_s : a.ptr = s.start + blockSize) (room : n ≤ s.size) :
    Isolated site
      ⟨c.state, ⟨a.ptr, carried c.state.memory a.data a.ptr n⟩ :: c.view.remove a.ptr⟩ segs := by
  have kept : bytesAt c.state.memory a.ptr (min a.data.length n) = a.data.take n := by
    rw [← bytesAt_take _ _ _ _ (Nat.min_le_left a.data.length n), iso.held a member, Nat.min_comm,
      ← List.take_eq_take_min]
  rw [carried_eq _ _ _ _ kept]
  exact iso.resize member in_segs at_s room

/-- The copy of a block into a larger fresh allocation is a client write into it. -/
theorem Isolated.copied {st : State}
    (grown : Isolated site ⟨st, ⟨q, bytesAt st.memory q n⟩ :: view⟩ segs)
    (fresh : q ∉ view.pointers) (member : a ∈ view) (in_segs : s ∈ segs)
    (at_s : a.ptr = s.start + blockSize) (larger : s.size < n) :
    Isolated site
      ⟨{ st with memory := memcpy st.memory q a.ptr s.size },
        ⟨q, overwrite (bytesAt st.memory q n) 0 (bytesAt st.memory a.ptr s.size)⟩ :: view⟩ segs := by
  have different : q ≠ a.ptr := fun equal => fresh (equal ▸ List.mem_map_of_mem member)
  have ahead : q ≤ a.ptr ∨ a.ptr + s.size ≤ q := by
    obtain ⟨t, in_list, -, at_t, size_t⟩ := grown.sized _ List.mem_cons_self
    simp only [bytesAt_length] at size_t
    simp only at at_t
    have off := payload_off_block grown.inv.heap.tiles in_segs in_list
      (fun equal => different (by rw [at_s, at_t, equal]))
    simp only [Segment.stop] at off
    omega
  have written := (grown.write List.mem_cons_self 0 (bytesAt st.memory a.ptr s.size)
    (by simp only [bytesAt_length]; omega)).1
  rw [overwrite_head _ _ _ _ fresh] at written
  simpa only [Nat.add_zero, ← memcpy_eq st.memory q a.ptr s.size ahead] using written

/-- The block is too small: malloc, a copy of the old block and a free. -/
theorem Isolated.realloc_moved {st : State}
    (grown : Isolated site ⟨st, ⟨q, bytesAt st.memory q n⟩ :: view⟩ segs)
    (fresh : q ∉ view.pointers) (member : a ∈ view) (in_segs : s ∈ segs)
    (at_s : a.ptr = s.start + blockSize) (room : a.data.length ≤ s.size) (larger : s.size < n) :
    ∃ st' segs', Heap.free { st with memory := memcpy st.memory q a.ptr s.size } a.ptr = some st' ∧
      Isolated site ⟨st', ⟨q, carried st'.memory a.data q n⟩ :: view.remove a.ptr⟩ segs' := by
  have different : q ≠ a.ptr := fun equal => fresh (equal ▸ List.mem_map_of_mem member)
  have copied := grown.copied fresh member in_segs at_s larger
  obtain ⟨st', run, after, -⟩ := copied.free (p := a.ptr)
    (List.mem_cons_of_mem _ (List.mem_map_of_mem member))
  refine ⟨st', release blockSize (a.ptr - blockSize) segs, run, ?_⟩
  rw [View.remove_cons_ne different] at after
  have holds := after.held _ List.mem_cons_self
  simp only [overwrite_length _ 0 (bytesAt st.memory a.ptr s.size)
    (show 0 + _ ≤ (bytesAt st.memory q n).length by simp only [bytesAt_length]; omega),
    bytesAt_length] at holds
  have kept : bytesAt st'.memory q (min a.data.length n) = a.data.take n := by
    rw [← bytesAt_take _ _ _ _ (Nat.min_le_right a.data.length n), holds,
      Nat.min_eq_left (by omega), List.take_of_length_le (by omega : a.data.length ≤ n)]
    simp only [overwrite, List.take_zero, List.nil_append]
    rw [List.take_append_of_le_length (by simpa only [bytesAt_length] using room),
      bytesAt_take _ _ _ _ room]
    exact grown.held a (List.mem_cons_of_mem _ member)
  rw [carried_eq _ _ _ _ kept, holds]
  exact after

theorem Isolated.free_ok (iso : Isolated site c segs) (p : Nat) (ok : (Op.free p).allowed c) :
    StepOk site c (.free p) := by
  by_cases isNull : p = null
  · subst isNull
    have absent : null ∉ c.view.pointers := fun member => iso.pointer_ne_null member rfl
    exact ⟨c.state, null, segs, rfl, by simpa only [View.after, View.remove_absent absent] using iso,
      fun _ asks => asks.elim⟩
  · obtain ⟨st, run, after, -⟩ := iso.free (ok.resolve_left isNull)
    exact ⟨st, null, release blockSize (p - blockSize) segs, by rw [Op.run, run]; rfl, after,
      fun _ asks => asks.elim⟩

theorem Isolated.write_ok (iso : Isolated site c segs) (p offset : Nat) (bytes : List UInt8)
    (ok : (Op.write p offset bytes).allowed c) : StepOk site c (.write p offset bytes) := by
  obtain ⟨a, member, rfl, inside⟩ := ok
  exact ⟨_, null, segs, rfl, (iso.write member offset bytes inside).1, fun _ asks => asks.elim⟩

theorem Isolated.realloc_ok (iso : Isolated site c segs) (p : Nat) (n : BitVec 64)
    (ok : (Op.realloc p n).allowed c) : StepOk site c (.realloc p n) := by
  obtain ⟨pointer, small⟩ := ok
  by_cases zero : n.toNat = 0
  · by_cases isNull : p = null
    · refine ⟨c.state, null, segs, ?_, ?_, fun _ asks => absurd zero asks⟩
      · simp only [Op.run, realloc, if_pos isNull, zero, malloc_zero]
      · simpa only [View.after, if_pos isNull, if_true] using iso
    · obtain ⟨st, run, after, -⟩ := iso.free (pointer.resolve_left isNull)
      refine ⟨st, null, release blockSize (p - blockSize) segs, ?_, ?_, fun _ asks => absurd zero asks⟩
      · simp only [Op.run, realloc, if_neg isNull, if_pos zero, run, Option.map_some]
      · simpa only [View.after, if_neg isNull, if_pos zero] using after
  by_cases isNull : p = null
  · rcases iso.malloc_cases small zero with
      ⟨st, run, after, untouched⟩ | ⟨st, q, out, run, nonnull, -, after, -, -⟩
    · refine ⟨st, null, segs, ?_, ?_, fun _ _ => ?_⟩
      · simp only [Op.run, realloc, if_pos isNull, run]
      · simpa only [View.after, if_pos isNull, if_true] using after
      · simpa only [View.after, if_pos isNull, if_true] using untouched
    · refine ⟨st, q, out, ?_, ?_, fun none => absurd none nonnull⟩
      · simp only [Op.run, realloc, if_pos isNull, run]
      · simpa only [View.after, if_pos isNull, if_neg nonnull] using after
  obtain ⟨a, member, rfl⟩ := Isolated.mem_view (pointer.resolve_left isNull)
  have held := View.dataAt_of_mem iso.inv.live_nodup member
  obtain ⟨s, in_segs, used, at_s, room⟩ := iso.sized a member
  have block : a.ptr - blockSize = s.start := by omega
  have size_read : readSize c.state.memory s.start = s.size :=
    (iso.represents member).linked.readSize_eq in_segs
  by_cases fits : n.toNat ≤ s.size
  · refine ⟨c.state, a.ptr, segs, ?_, ?_, fun none => absurd none isNull⟩
    · simp only [Op.run, realloc, if_neg isNull, if_neg zero, block, size_read, if_pos fits]
    · simpa only [View.after, if_neg isNull, if_neg zero, held] using
        iso.realloc_in_place member in_segs at_s fits
  · rcases iso.malloc_cases small zero with
      ⟨st, run, after, untouched⟩ | ⟨st, q, out, run, nonnull, fresh, after, kept, -⟩
    · refine ⟨st, null, segs, ?_, ?_, fun _ _ => ?_⟩
      · simp only [Op.run, realloc, if_neg isNull, if_neg zero, block, size_read, if_neg fits, run,
          Option.bind_some, if_true]
      · simpa only [View.after, if_neg isNull, if_neg zero, if_true] using after
      · simpa only [View.after, if_neg isNull, if_neg zero, if_true] using untouched
    · have in_out := kept s in_segs used
      have size_after : readSize st.memory s.start = s.size :=
        (after.represents List.mem_cons_self).linked.readSize_eq in_out
      obtain ⟨st', segs', free_run, moved⟩ := after.realloc_moved fresh member in_out at_s room
        (by omega)
      refine ⟨st', q, segs', ?_, ?_, fun none => absurd none nonnull⟩
      · simp only [Op.run, realloc, if_neg isNull, if_neg zero, block, size_read, if_neg fits, run,
          Option.bind_some, if_neg nonnull, size_after, if_pos (by omega : s.size < n.toNat),
          free_run, Option.map_some]
      · simpa only [View.after, if_neg isNull, if_neg zero, if_neg nonnull, held] using moved

theorem Isolated.step (iso : Isolated site c segs) (ok : op.allowed c) : StepOk site c op := by
  cases op with
  | malloc n => exact iso.malloc_ok n ok
  | calloc nmemb size => exact iso.calloc_ok nmemb size ok
  | realloc p n => exact iso.realloc_ok p n ok
  | free p => exact iso.free_ok p ok
  | write p offset bytes => exact iso.write_ok p offset bytes ok

theorem StepOk.tenant_step (ok : StepOk site c op) :
    ∃ c' q segs, c.step site op = some (c', q) ∧ Isolated site c' segs ∧
      (q = null → op.requests → Untouched site c c'.state c'.view) := by
  obtain ⟨st, q, segs, run, after, untouched⟩ := ok
  exact ⟨_, q, segs, by rw [Tenant.step, run]; rfl, after, untouched⟩

theorem tenant_reaches (run : c.step site op = some (c', q)) (reach : Reachable (tenants site) c)
    (ok : op.allowed c) : Reachable (tenants site) c' :=
  reach.next op ok (by simp only [tenants, run, Option.map_some])

theorem reachable_isolated (reach : Reachable (tenants site) c) : ∃ segs, Isolated site c segs := by
  refine reach.invariant (P := fun c => ∃ segs, Isolated site c segs) ?_ ?_
  · exact fun c start => ⟨_, Isolated.initial start⟩
  · rintro c op c' ⟨segs, iso⟩ ok ret
    obtain ⟨d, q, out, run, after, -⟩ := (iso.step ok).tenant_step
    have same : d = c' := by
      simp only [tenants, run, Option.map_some] at ret
      exact Option.some.inj ret
    exact ⟨out, same ▸ after⟩

/-- A tenant with two allocations, at the start of the heap. -/
theorem exampleTenant_two : ∃ (c₁ c₂ : Tenant) (first second : List UInt8),
    exampleTenant.step exampleSite (.malloc 16) = some (c₁, 4120) ∧
    c₁.step exampleSite (.malloc 200) = some (c₂, 4160) ∧
    c₂.view = [⟨4160, second⟩, ⟨4120, first⟩] ∧ first.length = 16 ∧ second.length = 200 ∧
    Reachable (tenants exampleSite) c₂ ∧
    Isolated exampleSite c₂ [⟨4096, 16, false⟩, ⟨4136, 208, false⟩, ⟨4368, 4194008, true⟩] := by
  obtain ⟨st, run, iso⟩ := exampleTenant_isolated.step_granted (n := 16) ⟨4096, 16, false⟩
    [⟨4096, 16, false⟩, ⟨4136, 4194240, true⟩] (by decide) (by decide) (by decide)
  obtain ⟨st', run', iso⟩ := iso.step_granted (n := 200) ⟨4136, 208, false⟩
    [⟨4096, 16, false⟩, ⟨4136, 208, false⟩, ⟨4368, 4194008, true⟩] (by decide) (by decide) (by decide)
  have reach := tenant_reaches run (.initial ⟨rfl, rfl, rfl⟩) ⟨by decide, by decide⟩
  exact ⟨_, _, _, _, run, run', rfl, bytesAt_length _ _ _, bytesAt_length _ _ _,
    tenant_reaches run' reach ⟨by decide, by decide⟩, iso⟩

end AxiomeToolchain.Source.Heap
