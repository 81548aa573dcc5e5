import AxiomeToolchain.Source.HeapCalls

/-!
# Requests of any size

A client may ask for any `size_t`, 0 and the largest ones included. A request is
served when ALIGN16 does not wrap it, when calloc's check refuses it, or when
there is no free block that a wrapped request could be handed. While all
requests are served the heap stays isolated.
-/

set_option autoImplicit false

namespace AxiomeToolchain.Source.Heap
open AxiomeToolchain.Library.ByteMemory
open AxiomeToolchain.Library.CInt
open AxiomeToolchain.Library.Tiling
open AxiomeToolchain.Library.FirstFit
open AxiomeToolchain.Library.Runs
open AxiomeToolchain.Source.StringCopy

/-- The bytes a call asks for; calloc's product is the mathematical one. -/
def Op.request : Op → Nat
  | .malloc n | .realloc _ n => n.toNat
  | .calloc nmemb size => nmemb.toNat * size.toNat
  | .free _ | .write _ _ _ => 0

/-- The pointer whose block realloc may keep. -/
def Op.kept : Op → Nat
  | .realloc p _ => p
  | _ => null

/-- Sizes are free; realloc, free and writes go to what the client holds. -/
def Op.proper (c : Tenant) : Op → Prop
  | .malloc _ | .calloc _ _ => True
  | .realloc p _ | .free p => p = null ∨ p ∈ c.view.pointers
  | .write p offset bytes => ∃ a ∈ c.view, a.ptr = p ∧ offset + bytes.length ≤ a.data.length

def Op.served (site : Site) (st : State) (op : Op) : Prop :=
  op.request ≤ maxRequest ∨ wordModulus ≤ op.request ∨ ∀ b ∈ blockList site st, b.free = 0

def guests (site : Site) : System Tenant Op where
  initial := Tenant.initial
  allowed c op := op.proper c ∧ op.served site c.state
  step c op := (c.step site op).map Prod.fst

/-- The byte loop of a call: the state it starts in, where it stores and how much. -/
structure Fill where
  state : State
  dst : Nat
  count : Nat

/-- calloc's memset and realloc's memcpy. -/
def Op.fill (site : Site) (st : State) : Op → Option Fill
  | .calloc nmemb size =>
    if nmemb.toNat = 0 ∨ size.toNat = 0 ∨ nmemb.toNat > (wordModulus - 1) / size.toNat then none
    else
      let total := u64Mul nmemb.toNat size.toNat
      (Heap.malloc site st total).bind (fun (st, p) => if p = null then none else some ⟨st, p, total⟩)
  | .realloc p n =>
    let block := p - blockSize
    if p = null ∨ n.toNat = 0 ∨ n.toNat ≤ readSize st.memory block then none
    else
      (Heap.malloc site st n.toNat).bind (fun (st, q) =>
        let held := readSize st.memory block
        if q = null then none else some ⟨st, q, if held < n.toNat then held else n.toNat⟩)
  | _ => none

/-- What the call does from there on. -/
def Op.finish (f : Fill) : Op → Option (State × Nat)
  | .calloc _ _ =>
    some ({ f.state with memory := memset f.state.memory f.dst 0 f.count }, f.dst)
  | .realloc p _ =>
    (Heap.free { f.state with memory := memcpy f.state.memory f.dst p f.count } p).map
      (fun st => (st, f.dst))
  | _ => none

variable {site : Site} {c : Tenant} {st st' : State} {n q : Nat} {op : Op} {f : Fill}
  {s g : Segment} {segs out : List Segment}

theorem proper_kept (proper : op.proper c) : op.kept = null ∨ op.kept ∈ c.view.pointers := by
  cases op with
  | realloc p n => exact proper
  | _ => exact .inl rfl

theorem allowed_small (usual : op.allowed c) : op.request ≤ maxRequest := by
  cases op with
  | malloc n => exact usual.2
  | calloc nmemb size => exact usual.2
  | realloc p n => exact usual.2
  | _ => exact Nat.zero_le _

theorem malloc_asked (run : malloc site st n = some (st', q)) (nonnull : q ≠ null) : n ≠ 0 := by
  rintro rfl
  rw [malloc_zero] at run
  cases run
  exact nonnull rfl

/-- A call with a byte loop is a malloc of the request, the loop over no more
bytes, and for realloc a free. -/
theorem fill_spec (filled : op.fill site st = some f) :
    malloc site st op.request = some (f.state, f.dst) ∧ f.dst ≠ null ∧ f.count ≤ op.request ∧
      op.run site st = op.finish f := by
  cases op with
  | calloc nmemb size =>
    simp only [Op.fill] at filled
    split at filled
    · cases filled
    next checks =>
    obtain ⟨members, checks⟩ := not_or.mp checks
    obtain ⟨sized, passed⟩ := not_or.mp checks
    obtain ⟨⟨after, p⟩, run, filled⟩ := Option.bind_eq_some_iff.mp filled
    simp only at filled
    split at filled
    · cases filled
    next nonnull =>
    cases filled
    have size_pos := Nat.pos_of_ne_zero sized
    have fits := (check_passes_iff size_pos).mp passed
    rw [u64Mul_of_lt fits] at run ⊢
    refine ⟨run, nonnull, Nat.le_refl _, ?_⟩
    rw [run_calloc st (Nat.mul_pos (Nat.pos_of_ne_zero members) size_pos) fits, run,
      Option.map_some]
    exact congrArg some (if_pos nonnull)
  | realloc p n =>
    simp only [Op.fill] at filled
    split at filled
    · cases filled
    next checks =>
    obtain ⟨given, checks⟩ := not_or.mp checks
    obtain ⟨asked, larger⟩ := not_or.mp checks
    obtain ⟨⟨after, q⟩, run, filled⟩ := Option.bind_eq_some_iff.mp filled
    simp only at filled
    split at filled
    · cases filled
    next nonnull =>
    cases filled
    refine ⟨run, nonnull, ?_, ?_⟩
    · simp only [Op.request]
      split <;> omega
    · simp only [Op.run, realloc, if_neg given, if_neg asked, if_neg larger, run, Option.bind_some,
        if_neg nonnull, Op.finish]
  | malloc n => cases filled
  | free p => cases filled
  | write p offset bytes => cases filled

theorem calloc_nonnull {nmemb size : Nat} (run : calloc site st nmemb size = some (st', q))
    (nonnull : q ≠ null) :
    nmemb * size ≠ 0 ∧ ∃ out, malloc site st (nmemb * size) = some (out, q) := by
  simp only [calloc] at run
  split at run
  · cases run
    exact absurd rfl nonnull
  · next members =>
    split at run
    · cases run
      exact absurd rfl nonnull
    · next passed =>
      obtain ⟨some_members, sized⟩ := not_or.mp members
      rw [u64Mul_of_lt ((check_passes_iff (Nat.pos_of_ne_zero sized)).mp passed)] at run
      obtain ⟨⟨out, p⟩, granted, same⟩ := Option.map_eq_some_iff.mp run
      have pointer : p = q := by
        simp only at same
        split at same
        · exact congrArg Prod.snd same
        · exact congrArg Prod.snd same
      subst pointer
      exact ⟨Nat.mul_ne_zero some_members sized, out, granted⟩

theorem realloc_nonnull {p n : Nat} (run : realloc site st p n = some (st', q))
    (nonnull : q ≠ null) :
    n ≠ 0 ∧ ((∃ out, malloc site st n = some (out, q)) ∨
      (p = q ∧ n ≤ readSize st.memory (q - blockSize))) := by
  simp only [realloc] at run
  split at run
  · exact ⟨malloc_asked run nonnull, .inl ⟨st', run⟩⟩
  split at run
  · obtain ⟨out, -, same⟩ := Option.map_eq_some_iff.mp run
    cases same
    exact absurd rfl nonnull
  next asked =>
  split at run
  · next fits =>
    cases run
    exact ⟨asked, .inr ⟨rfl, fits⟩⟩
  · obtain ⟨⟨out, moved_to⟩, granted, moved⟩ := Option.bind_eq_some_iff.mp run
    refine ⟨asked, .inl ⟨out, ?_⟩⟩
    simp only at moved
    split at moved
    · cases moved
      exact absurd rfl nonnull
    · obtain ⟨freed, -, same⟩ := Option.map_eq_some_iff.mp moved
      cases same
      exact granted

/-- A pointer comes from a malloc of the request, or realloc keeps its block. -/
theorem run_nonnull (run : op.run site st = some (st', q)) (nonnull : q ≠ null) :
    op.request ≠ 0 ∧ ((∃ out, malloc site st op.request = some (out, q)) ∨
      (op.kept = q ∧ op.request ≤ readSize st.memory (q - blockSize))) := by
  cases op with
  | malloc n =>
    have run : malloc site st n.toNat = some (st', q) := run
    exact ⟨malloc_asked run nonnull, .inl ⟨st', run⟩⟩
  | calloc nmemb size =>
    obtain ⟨asked, granted⟩ := calloc_nonnull run nonnull
    exact ⟨asked, .inl granted⟩
  | realloc p n => exact realloc_nonnull run nonnull
  | free p =>
    obtain ⟨out, -, same⟩ := Option.map_eq_some_iff.mp run
    cases same
    exact absurd rfl nonnull
  | write p offset bytes =>
    cases run
    exact absurd rfl nonnull

/-! ## Requests that get NULL -/

theorem blocks_used (heap : HeapAt site st segs) :
    (∀ b ∈ blockList site st, b.free = 0) ↔ ∀ s ∈ segs, s.free = false := by
  rw [blockList_eq heap]
  constructor
  · intro used s member
    obtain ⟨b, in_list, -, -, free⟩ := rawBlocks_of_mem member
    have zero := used b in_list
    rw [free] at zero
    exact Bool.eq_false_iff.mpr (fun isFree => flag_ne_zero.mpr isFree zero)
  · intro used b in_list
    obtain ⟨s, member, -, -, free⟩ := mem_rawBlocks in_list
    rw [free, used s member]
    rfl

/-- No block has room for a request that wraps. -/
theorem HeapAt.misfit (heap : HeapAt site st segs) (member : s ∈ segs) (large : maxRequest < n) :
    ¬ n ≤ s.size := by
  have bounds := heap.tiles.bounds member
  have heap_small : heapSize ≤ maxRequest := by decide
  simp only [Segment.stop] at bounds
  omega

/-- The header realloc reads for a pointer the client holds. -/
theorem Isolated.held_block {p : Nat} (iso : Isolated site c segs) (member : p ∈ c.view.pointers) :
    ∃ s ∈ segs, p = s.start + blockSize ∧
      readSize c.state.memory (p - blockSize) = s.size := by
  obtain ⟨a, in_view, rfl⟩ := Isolated.mem_view member
  obtain ⟨s, in_segs, -, at_s, -⟩ := iso.sized a in_view
  refine ⟨s, in_segs, at_s, ?_⟩
  rw [at_s, Nat.add_sub_cancel]
  exact (iso.represents in_view).linked.readSize_eq in_segs

theorem initHeap_errno (site : Site) (st : State) (e : Int) :
    initHeap site { st with errno := e } = { initHeap site st with errno := e } := by
  unfold initHeap
  split <;> rfl

theorem Isolated.errno (iso : Isolated site c segs) (e : Int) :
    Isolated site ⟨{ c.state with errno := e }, c.view⟩ segs := by
  refine ⟨⟨?_, iso.inv.separated, iso.inv.live, iso.inv.ready⟩, iso.sized, iso.held⟩
  have heap := iso.inv.heap
  rw [HeapAt] at heap ⊢
  rw [initHeap_errno]
  exact heap

/-- A request that wraps is served only without a free block. -/
theorem refused_of_served (heap : HeapAt site st segs)
    (served : n ≤ maxRequest ∨ wordModulus ≤ n ∨ ∀ b ∈ blockList site st, b.free = 0)
    (fits : n < wordModulus) (unusual : ¬ (1 ≤ n ∧ n ≤ maxRequest)) :
    n = 0 ∨ allocate blockSize 16 (align16 n) segs = none := by
  rcases served with small | large | used
  · exact .inl (by omega)
  · omega
  · refine .inr (allocate_eq_none.mpr (fun s member fit => ?_))
    rw [(blocks_used heap).mp used s member] at fit
    exact Bool.false_ne_true fit.1

/-- A call for 0 bytes or for too many, as long as it is served, gets NULL. -/
theorem Isolated.refused (iso : Isolated site c segs) (proper : op.proper c)
    (served : op.served site c.state) (unusual : ¬ op.allowed c) :
    ∃ st, op.run site c.state = some (st, null) ∧ Isolated site ⟨st, c.view⟩ segs ∧
      (∀ m, c.view.after m null op = c.view) ∧ op.fill site c.state = none := by
  cases op with
  | malloc n =>
    have refused := refused_of_served (n := n.toNat) iso.inv.heap served n.isLt unusual
    obtain ⟨st, run, after, -⟩ := iso.malloc_null refused
    exact ⟨st, run, after, fun _ => rfl, rfl⟩
  | calloc nmemb size =>
    by_cases empty : nmemb.toNat = 0 ∨ size.toNat = 0
    · refine ⟨c.state, run_calloc_zero c.state (Nat.mul_eq_zero.mpr empty), iso, fun _ => rfl, ?_⟩
      simp only [Op.fill, ← or_assoc, empty, true_or, if_true]
    by_cases overflow : nmemb.toNat > (wordModulus - 1) / size.toNat
    · refine ⟨_, ?_, iso.errno enomem, fun _ => rfl, ?_⟩
      · simp only [Op.run, calloc, if_neg empty, if_pos overflow]
      · simp only [Op.fill, overflow, or_true, if_true]
    · have fits := (check_passes_iff (Nat.pos_of_ne_zero (not_or.mp empty).2)).mp overflow
      have refused := refused_of_served (n := nmemb.toNat * size.toNat) iso.inv.heap served fits
        unusual
      obtain ⟨st, run, after, -⟩ := iso.malloc_null refused
      refine ⟨st, ?_, after, fun _ => rfl, ?_⟩
      · simp only [Op.run, calloc, if_neg empty, if_neg overflow, u64Mul_of_lt fits, run,
          Option.map_some, ne_eq, not_true_eq_false, if_false]
      · simp only [Op.fill, ← or_assoc, empty, overflow, or_self, if_false, u64Mul_of_lt fits, run,
          Option.bind_some, if_true]
  | realloc p n =>
    have large : maxRequest < n.toNat := Nat.lt_of_not_le (fun small => unusual ⟨proper, small⟩)
    have nonzero : n.toNat ≠ 0 := by omega
    have refused := refused_of_served (n := n.toNat) iso.inv.heap served n.isLt (by omega)
    obtain ⟨st, run, after, -⟩ := iso.malloc_null refused
    by_cases isNull : p = null
    · refine ⟨st, ?_, after, fun m => ?_, ?_⟩
      · simp only [Op.run, realloc, if_pos isNull, run]
      · simp only [View.after, if_pos isNull, if_true]
      · simp only [Op.fill, isNull, true_or, if_true]
    · obtain ⟨s, in_segs, -, size_read⟩ := iso.held_block (proper.resolve_left isNull)
      have misfit := iso.inv.heap.misfit in_segs large
      refine ⟨st, ?_, after, fun m => ?_, ?_⟩
      · simp only [Op.run, realloc, if_neg isNull, if_neg nonzero, size_read, if_neg misfit, run,
          Option.bind_some, if_true]
      · simp only [View.after, if_neg isNull, if_neg nonzero, if_true]
      · simp only [Op.fill, isNull, nonzero, size_read, misfit, or_self, if_false, run,
          Option.bind_some, if_true]
  | free p => exact absurd proper unusual
  | write p offset bytes => exact absurd proper unusual

/-- Every served call returns, and leaves an isolated heap. -/
theorem Isolated.guest_step (iso : Isolated site c segs) (proper : op.proper c)
    (served : op.served site c.state) :
    ∃ st q out, op.run site c.state = some (st, q) ∧
      Isolated site ⟨st, c.view.after st.memory q op⟩ out := by
  by_cases usual : op.allowed c
  · obtain ⟨st, q, out, run, after, -⟩ := iso.step usual
    exact ⟨st, q, out, run, after⟩
  · obtain ⟨st, run, after, same, -⟩ := iso.refused proper served usual
    exact ⟨st, null, segs, run, by rwa [same]⟩

theorem guest_reaches {c' : Tenant} (run : c.step site op = some (c', q))
    (reach : Reachable (guests site) c) (proper : op.proper c) (served : op.served site c.state) :
    Reachable (guests site) c' :=
  reach.next op ⟨proper, served⟩ (by simp only [guests, run, Option.map_some])

theorem guests_isolated (reach : Reachable (guests site) c) : ∃ segs, Isolated site c segs := by
  refine reach.invariant (P := fun c => ∃ segs, Isolated site c segs) ?_ ?_
  · exact fun c start => ⟨_, Isolated.initial start⟩
  · intro c op c' before ok ret
    obtain ⟨segs, iso⟩ := before
    obtain ⟨st, q, out, run, after⟩ := iso.guest_step ok.1 ok.2
    have same : (⟨st, c.view.after st.memory q op⟩ : Tenant) = c' := by
      simp only [guests, Tenant.step, run, Option.map_some] at ret
      exact Option.some.inj ret
    exact ⟨out, same ▸ after⟩

/-! ## Room for a request -/

/-- Every free block is too small for a request of `n` bytes. -/
def NoRoom (site : Site) (st : State) (n : Nat) : Prop :=
  ∀ b ∈ blockList site st, b.free ≠ 0 → b.size < align16 n

theorem no_room_iff (heap : HeapAt site st segs) :
    allocate blockSize 16 (align16 n) segs = none ↔ NoRoom site st n := by
  rw [allocate_eq_none, NoRoom, blockList_eq heap]
  constructor
  · intro misfit b in_list isFree
    obtain ⟨s, member, -, size, free⟩ := mem_rawBlocks in_list
    rw [free, flag_ne_zero] at isFree
    rw [size]
    exact Nat.lt_of_not_le (fun room => misfit s member ⟨isFree, room⟩)
  · intro small s member fit
    obtain ⟨b, in_list, -, size, free⟩ := rawBlocks_of_mem member
    have less := small b in_list (by rw [free, flag_ne_zero]; exact fit.1)
    rw [size] at less
    exact Nat.not_le_of_lt less fit.2

/-- malloc returns NULL exactly if there is no room. -/
theorem Isolated.malloc_room (iso : Isolated site c segs) (small : n ≤ maxRequest) (nonzero : n ≠ 0) :
    (NoRoom site c.state n ∧ ∃ st, malloc site c.state n = some (st, null) ∧
      Isolated site ⟨st, c.view⟩ segs) ∨
    (¬ NoRoom site c.state n ∧ ∃ st q out, malloc site c.state n = some (st, q) ∧ q ≠ null ∧
      q ∉ c.view.pointers ∧ Isolated site ⟨st, ⟨q, bytesAt st.memory q n⟩ :: c.view⟩ out) := by
  rw [← no_room_iff iso.inv.heap]
  cases found : allocate blockSize 16 (align16 n) segs with
  | none =>
    obtain ⟨st, run, after, -⟩ := iso.malloc_null (.inr found)
    exact .inl ⟨rfl, st, run, after⟩
  | some grant =>
    obtain ⟨g, out⟩ := grant
    obtain ⟨st, run, after, -⟩ := iso.malloc_some nonzero small found
    have nodup : ((g.start + blockSize) :: c.view.pointers).Nodup := after.inv.live_nodup
    exact .inr ⟨by simp, st, _, out, run, after.pointer_ne_null List.mem_cons_self,
      (List.nodup_cons.mp nodup).1, after⟩

end AxiomeToolchain.Source.Heap
