import AxiomeToolchain.Source.HeapRequests

/-!
# The alignment of returned pointers

ALIGN16 rounds every size to 16 bytes, but a payload starts after the 24 bytes
of its header, and init_heap puts the first header at the start of the heap. On
a heap at a 16-byte boundary the first pointer a run returns is the start plus
24, so a run returns multiples of 16 only as long as it returns no pointer at
all: when the untouched heap can satisfy none of its requests.
-/

set_option autoImplicit false

namespace AxiomeToolchain.Guarantees.HeapAlignment
open AxiomeToolchain.Library.CInt
open AxiomeToolchain.Library.FirstFit
open AxiomeToolchain.Library.Runs
open AxiomeToolchain.Source.Heap

/-- Clients that ask for any number of bytes at any time. -/
def callers (site : Site) : System Tenant Op where
  initial := Tenant.initial
  allowed c op := op.proper c
  step c op := (c.step site op).map Prod.fst

/-- The pointer the call returns, if any, is a multiple of 16. -/
def Aligned (site : Site) (st : State) (op : Op) : Prop :=
  ∀ st' q, op.run site st = some (st', q) → q ≠ null → 16 ∣ q

/-- A call for no bytes, for a product calloc refuses, or for more than the one
block of the untouched heap has. -/
def Unfillable (op : Op) : Prop :=
  op.request = 0 ∨ wordModulus ≤ op.request ∨ heapSize - blockSize < align16 op.request

/-- The heap is the one free block of init_heap and the client holds nothing. -/
structure Fresh (site : Site) (c : Tenant) : Prop where
  iso : Isolated site c [initialSegment site]
  empty : c.view = []

variable {site : Site} {c c' : Tenant} {n : Nat} {op : Op} {steps : List (Step Tenant Op)}

theorem Fresh.initial (start : c.initial) : Fresh site c :=
  ⟨Isolated.initial start, start.2.2⟩

theorem Fresh.not_held (fresh : Fresh site c) (p : Nat) : p ∉ c.view.pointers := by
  rw [fresh.empty]
  exact List.not_mem_nil

/-! ## One malloc on the untouched heap -/

theorem Fresh.malloc_null (fresh : Fresh site c) (small : n = 0 ∨ heapSize - blockSize < align16 n) :
    ∃ st, malloc site c.state n = some (st, null) ∧ Fresh site ⟨st, c.view⟩ := by
  have refused : n = 0 ∨ allocate blockSize 16 (align16 n) [initialSegment site] = none := by
    refine small.imp_right (fun large => allocate_eq_none.mpr (fun s member fit => ?_))
    cases List.mem_singleton.mp member
    exact absurd fit.2 (Nat.not_le.mpr large)
  obtain ⟨st, run, after, -⟩ := fresh.iso.malloc_null refused
  exact ⟨st, run, after, fresh.empty⟩

theorem first_ne_null (site : Site) : site.base + blockSize ≠ null :=
  Nat.ne_of_gt (Nat.add_pos_left site.base_pos _)

theorem Fresh.malloc_first (fresh : Fresh site c) (asked : n ≠ 0)
    (room : align16 n ≤ heapSize - blockSize) :
    ∃ st, malloc site c.state n = some (st, site.base + blockSize) := by
  have found : allocate blockSize 16 (align16 n) [initialSegment site] =
      some (granted blockSize 16 (align16 n) (initialSegment site),
        carve blockSize 16 (align16 n) (initialSegment site) ++ []) := if_pos ⟨rfl, room⟩
  obtain ⟨st, run, -⟩ := fresh.iso.inv.malloc_some asked found
  exact ⟨st, run⟩

/-! ## One call on the untouched heap -/

theorem Fresh.malloc_refused (fresh : Fresh site c) {n : BitVec 64} (idle : Unfillable (.malloc n)) :
    ∃ st, malloc site c.state n.toNat = some (st, null) ∧ Fresh site ⟨st, c.view⟩ :=
  fresh.malloc_null (idle.imp_right (fun large => large.resolve_left (Nat.not_le.mpr n.isLt)))

theorem Fresh.calloc_refused (fresh : Fresh site c) {nmemb size : BitVec 64}
    (idle : Unfillable (.calloc nmemb size)) :
    ∃ st, (Op.calloc nmemb size).run site c.state = some (st, null) ∧ Fresh site ⟨st, c.view⟩ := by
  rcases Nat.eq_zero_or_pos (nmemb.toNat * size.toNat) with zero | low
  · exact ⟨c.state, run_calloc_zero c.state zero, fresh⟩
  by_cases fits : nmemb.toNat * size.toNat < wordModulus
  · have large := (idle.resolve_left low.ne').resolve_left (Nat.not_le.mpr fits)
    obtain ⟨st, run, after⟩ := fresh.malloc_null (.inr large)
    have run : malloc site c.state (nmemb.toNat * size.toNat) = some (st, null) := run
    refine ⟨st, ?_, after⟩
    rw [run_calloc c.state low fits, run]
    rfl
  · exact ⟨_, run_calloc_overflow c.state (Nat.not_lt.mp fits), fresh.iso.errno enomem, fresh.empty⟩

/-- A call the untouched heap cannot satisfy gets NULL and leaves it untouched. -/
theorem Fresh.refused (fresh : Fresh site c) (proper : op.proper c) (idle : Unfillable op) :
    ∃ st, op.run site c.state = some (st, null) ∧
      ∀ m, Fresh site ⟨st, c.view.after m null op⟩ := by
  cases op with
  | malloc n =>
    obtain ⟨st, run, after⟩ := fresh.malloc_refused idle
    exact ⟨st, run, fun _ => after⟩
  | calloc nmemb size =>
    obtain ⟨st, run, after⟩ := fresh.calloc_refused idle
    exact ⟨st, run, fun _ => after⟩
  | realloc p n =>
    obtain rfl : p = null := proper.resolve_right (fresh.not_held p)
    obtain ⟨st, run, after⟩ := fresh.malloc_refused idle
    exact ⟨st, run, fun _ => after⟩
  | free p =>
    obtain rfl : p = null := proper.resolve_right (fresh.not_held p)
    refine ⟨c.state, rfl, fun m => ?_⟩
    simp only [View.after, View.remove_absent (fresh.not_held null)]
    exact fresh
  | write p offset bytes =>
    obtain ⟨a, member, -⟩ := proper
    rw [fresh.empty] at member
    cases member

/-- Any other call returns the first payload of the heap. -/
theorem Fresh.served (fresh : Fresh site c) (proper : op.proper c) (asks : ¬ Unfillable op) :
    ∃ st, op.run site c.state = some (st, site.base + blockSize) := by
  obtain ⟨asked, asks⟩ := not_or.mp asks
  obtain ⟨fits, room⟩ := not_or.mp asks
  obtain ⟨st, run⟩ := fresh.malloc_first asked (Nat.not_lt.mp room)
  cases op with
  | malloc n => exact ⟨st, run⟩
  | calloc nmemb size =>
    have run : malloc site c.state (nmemb.toNat * size.toNat) = some (st, site.base + blockSize) :=
      run
    rw [run_calloc c.state (Nat.pos_of_ne_zero asked) (Nat.not_le.mp fits), run]
    exact ⟨_, congrArg some (if_pos (first_ne_null site))⟩
  | realloc p n =>
    obtain rfl : p = null := proper.resolve_right (fresh.not_held p)
    exact ⟨st, run⟩
  | free p => exact absurd rfl asked
  | write p offset bytes => exact absurd rfl asked

/-- On an untouched heap at a 16-byte boundary only a NULL is aligned. -/
theorem Fresh.aligned_iff (fresh : Fresh site c) (boundary : 16 ∣ site.base)
    (proper : op.proper c) : Aligned site c.state op ↔ Unfillable op := by
  constructor
  · intro aligned
    by_contra asks
    obtain ⟨st, run⟩ := fresh.served proper asks
    have multiple := aligned st _ run (first_ne_null site)
    unfold blockSize at multiple
    omega
  · intro idle st q returned nonnull
    obtain ⟨st', run, -⟩ := fresh.refused proper idle
    rw [run] at returned
    cases returned
    exact absurd rfl nonnull

/-! ## Runs -/

theorem untouched_run (start : c.initial) (run : Run (callers site) c steps c')
    (idle : ∀ step ∈ steps, Unfillable step.call) : Fresh site c' := by
  induction run with
  | nil => exact Fresh.initial start
  | snoc run ok ret ih =>
    obtain ⟨earlier, last⟩ := List.forall_mem_append.mp idle
    obtain ⟨st, direct, after⟩ := (ih earlier).refused ok (last _ List.mem_cons_self)
    simp only [callers, Tenant.step, direct, Option.map_some, Option.some.injEq] at ret
    exact ret ▸ after st.memory

/-- On a heap at a 16-byte boundary, the pointers a run returns are multiples of
16 exactly when the untouched heap could satisfy none of its requests. -/
theorem alignment_iff (site : Site) (boundary : 16 ∣ site.base) (c c' : Tenant)
    (steps : List (Step Tenant Op)) (start : c.initial) (run : Run (callers site) c steps c') :
    (∀ step ∈ steps, Aligned site step.before.state step.call) ↔
      ∀ step ∈ steps, Unfillable step.call := by
  induction run with
  | nil => simp only [List.not_mem_nil, false_implies, implies_true]
  | snoc run ok ret ih =>
    rw [List.forall_mem_append, List.forall_mem_append, ih]
    apply and_congr_right
    intro idle
    rw [List.forall_mem_singleton, List.forall_mem_singleton]
    exact (untouched_run start run idle).aligned_iff boundary ok

/-- A client of the heap at 4096, before its first call. -/
def exampleCaller : Tenant := ⟨exampleStart.state, []⟩

theorem exampleCaller_initial : exampleCaller.initial := ⟨rfl, rfl, rfl⟩

theorem exampleCaller_run {op : Op} {st : State} {q : Nat} (proper : op.proper exampleCaller)
    (run : op.run exampleSite exampleCaller.state = some (st, q)) :
    Run (callers exampleSite) exampleCaller
      [⟨exampleCaller, op, ⟨st, View.after [] st.memory q op⟩⟩] ⟨st, View.after [] st.memory q op⟩ := by
  refine Run.single proper ?_
  simp only [callers, Tenant.step, run, Option.map_some]
  rfl

/-- A run of one malloc that asks for the whole array returns no pointer. -/
theorem alignment_of_refusal : ∃ c',
    Run (callers exampleSite) exampleCaller [⟨exampleCaller, .malloc 4194304, c'⟩] c' ∧
    Aligned exampleSite exampleCaller.state (.malloc 4194304) := by
  have idle : Unfillable (.malloc 4194304) := by
    refine .inr (.inr ?_)
    rw [align16_eq (by decide)]
    decide
  have proper : (Op.malloc 4194304).proper exampleCaller := trivial
  obtain ⟨st, direct, -⟩ :=
    Fresh.refused (c := exampleCaller) (Fresh.initial exampleCaller_initial) proper idle
  have run := exampleCaller_run proper direct
  have aligned := (alignment_iff exampleSite (by decide) _ _ _ exampleCaller_initial run).mpr
    (List.forall_mem_singleton.mpr idle)
  exact ⟨_, run, aligned _ List.mem_cons_self⟩

/-- The first malloc(1) on a heap at 4096 returns 4120 = 257 * 16 + 8. -/
theorem first_pointer_misaligned : 16 ∣ exampleSite.base ∧ exampleCaller.initial ∧ ∃ c',
    Run (callers exampleSite) exampleCaller [⟨exampleCaller, .malloc 1, c'⟩] c' ∧
    (Op.malloc 1).run exampleSite exampleCaller.state = some (c'.state, 4120) ∧
    ¬ Aligned exampleSite exampleCaller.state (.malloc 1) := by
  have proper : (Op.malloc 1).proper exampleCaller := trivial
  have fresh : Fresh exampleSite exampleCaller := Fresh.initial exampleCaller_initial
  obtain ⟨st, direct⟩ := fresh.malloc_first (n := 1) (by decide) (by decide)
  have direct : (Op.malloc 1).run exampleSite exampleCaller.state = some (st, 4120) := direct
  refine ⟨by decide, exampleCaller_initial, _, exampleCaller_run proper direct, direct, ?_⟩
  intro aligned
  exact absurd (aligned st 4120 direct (by decide)) (by decide)

end AxiomeToolchain.Guarantees.HeapAlignment
