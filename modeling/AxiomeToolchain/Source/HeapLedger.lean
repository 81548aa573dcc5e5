import AxiomeToolchain.Library.Occupancy
import AxiomeToolchain.Source.HeapRequests

/-!
# What the live blocks cost

A client of any requests, with a ledger: the largest number of bytes it asked
for so far at each of its pointers. realloc may keep a block that is larger than
the last request, so that it is this number that bounds the block. Every block
in use has fewer than 55 bytes more than its charge.
-/

set_option autoImplicit false

namespace AxiomeToolchain.Source.Heap
open AxiomeToolchain.Library.ByteMemory
open AxiomeToolchain.Library.CInt
open AxiomeToolchain.Library.Tiling
open AxiomeToolchain.Library.FirstFit
open AxiomeToolchain.Library.Occupancy
open AxiomeToolchain.Library.Runs
open AxiomeToolchain.Source.StringCopy

variable {site : Site} {c : Tenant} {client : Client} {st st' : State} {n p q : Nat} {op : Op}
  {a : Allocation} {s g : Segment} {segs out : List Segment} {view : View} {charge : Nat → Nat}

/-! ## Which blocks are in use after a call -/

/-- A call that asks for memory and gets NULL was refused by malloc. -/
theorem null_refused (ok : op.allowed c) (asks : op.requests)
    (run : op.run site c.state = some (st, null)) :
    op.request ≠ 0 ∧ ∃ st', malloc site c.state op.request = some (st', null) := by
  cases op with
  | malloc n => exact ⟨by have := ok.1; simp only [Op.request]; omega, st, run⟩
  | calloc nmemb size =>
    obtain ⟨low, high⟩ := ok
    refine ⟨by simp only [Op.request]; omega, ?_⟩
    rw [run_calloc c.state low (Nat.lt_of_le_of_lt high (by decide))] at run
    obtain ⟨⟨st', p⟩, granted, same⟩ := Option.map_eq_some_iff.mp run
    have isNull : p = null := by
      simp only at same
      split at same <;> exact congrArg Prod.snd same
    exact ⟨st', isNull ▸ granted⟩
  | realloc p n =>
    refine ⟨asks, ?_⟩
    simp only [Op.run, realloc, if_neg (show ¬ n.toNat = 0 from asks)] at run
    split at run
    · exact ⟨st, run⟩
    next given =>
    split at run
    · cases run
      exact absurd rfl given
    · obtain ⟨⟨st', q⟩, granted, moved⟩ := Option.bind_eq_some_iff.mp run
      simp only at moved
      split at moved
      · next isNull => exact ⟨st', isNull ▸ granted⟩
      · next nonnull =>
        obtain ⟨freed, -, same⟩ := Option.map_eq_some_iff.mp moved
        exact absurd (congrArg Prod.snd same) nonnull
  | free p => exact asks.elim
  | write p offset bytes => exact asks.elim

end AxiomeToolchain.Source.Heap
