import AxiomeToolchain.Source.StringCopy

/-!
# memmove and memcpy on overlapping ranges

memmove reads every source byte before a store can reach it, whatever the two
ranges share. memcpy only ever copies upwards, which is enough when the
destination does not start inside the source.
-/

set_option autoImplicit false

namespace AxiomeToolchain.Guarantees.OverlappingCopy
open AxiomeToolchain.Library.ByteMemory
open AxiomeToolchain.Source.StringCopy

/-- `m'` is `m` with the `n` bytes from `src` on copied, as they were in `m`, to `dst`. -/
structure Copied (m : Memory) (dst src n : Nat) (m' : Memory) : Prop where
  moved : ∀ i, i < n → m' (dst + i) = m (src + i)
  frame : ∀ x, x < dst ∨ dst + n ≤ x → m' x = m x

theorem writeBytes_copied (m : Memory) (dst src n : Nat) :
    Copied m dst src n (writeBytes m dst (bytesAt m src n)) where
  moved := by
    intro i inside
    have written := bytesAt_get (writeBytes m dst (bytesAt m src n)) dst n i inside
    have same := bytesAt_writeBytes_same (bytesAt m src n) m dst
    rw [bytesAt_length] at same
    rw [same, bytesAt_get m src n i inside] at written
    exact (Option.some.inj written).symm
  frame := by
    intro x outside
    apply writeBytes_frame
    rwa [bytesAt_length]

/-- memmove copies for every overlap, and memcpy leaves the same memory when the
ranges are apart or the destination is not above the source. -/
theorem memmove_copied (m : Memory) (dst src n : Nat) :
    Copied m dst src n (memmove m dst src n) ∧
      (dst + n ≤ src ∨ src + n ≤ dst ∨ dst ≤ src → memcpy m dst src n = memmove m dst src n) := by
  rw [memmove_eq]
  constructor
  · exact writeBytes_copied m dst src n
  · intro ahead
    exact memcpy_eq m dst src n (by omega)

def overlapping : Memory := fun x => UInt8.ofNat x

/-- Upwards into its own source memcpy repeats the first byte. -/
example : bytesAt (memcpy overlapping 1 0 3) 0 4 = [0, 0, 0, 0] ∧
    bytesAt (memmove overlapping 1 0 3) 0 4 = [0, 0, 1, 2] := by decide

theorem memmove_copied_down : Copied overlapping 4 6 8 (memmove overlapping 4 6 8) ∧
    memcpy overlapping 4 6 8 = memmove overlapping 4 6 8 := by
  obtain ⟨copied, same⟩ := memmove_copied overlapping 4 6 8
  exact ⟨copied, same (.inr (.inr (by decide)))⟩

end AxiomeToolchain.Guarantees.OverlappingCopy
