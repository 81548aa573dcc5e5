import AxiomeToolchain.Source.HeapStrings

/-!
# What the heap and its clients leave alone

The bytes outside the heap array. Headers and payloads lie inside it, so that
every call of the allocator, every write of a client and every store of string.c
into an allocation leaves the other bytes as they were.
-/

set_option autoImplicit false

namespace AxiomeToolchain.Source.Heap
open AxiomeToolchain.Library.ByteMemory
open AxiomeToolchain.Library.Tiling
open AxiomeToolchain.Library.FirstFit
open AxiomeToolchain.Library.Runs
open AxiomeToolchain.Library.TerminatedString
open AxiomeToolchain.Source.StringCopy
open AxiomeToolchain.Source.HeapStrings

/-- No byte of `heap`. -/
def Beyond (site : Site) (x : Nat) : Prop := x < site.base ∨ site.base + heapSize ≤ x

def Contained (site : Site) (m m' : Memory) : Prop := ∀ x, Beyond site x → m' x = m x

/-- The bytes from `p` to `p + n` lie in `heap`. -/
def Within (site : Site) (p n : Nat) : Prop := site.base ≤ p ∧ p + n ≤ site.base + heapSize

variable {site : Site} {c c' : Tenant} {st st' : State} {m m' m'' : Memory} {n p q : Nat} {op : Op}
  {a : Allocation} {s : Segment} {segs : List Segment} {bytes : List UInt8}

theorem Contained.refl (site : Site) (m : Memory) : Contained site m m := fun _ _ => rfl

theorem Contained.trans (first : Contained site m m') (second : Contained site m' m'') :
    Contained site m m'' :=
  fun x beyond => (second x beyond).trans (first x beyond)

theorem Within.shorter {k : Nat} (within : Within site p n) (short : k ≤ n) : Within site p k :=
  ⟨within.1, (Nat.add_le_add_left short p).trans within.2⟩

theorem HeapAt.within (heap : HeapAt site st segs) (member : s ∈ segs) :
    Within site s.start (blockSize + s.size) := by
  have bounds := heap.tiles.bounds member
  unfold Segment.stop at bounds
  exact ⟨bounds.1, by omega⟩

theorem Isolated.within (iso : Isolated site c segs) (member : a ∈ c.view) :
    Within site a.ptr a.data.length := by
  obtain ⟨s, in_segs, -, at_s, room⟩ := iso.sized a member
  obtain ⟨low, high⟩ := iso.inv.heap.within in_segs
  exact ⟨by omega, by omega⟩

end AxiomeToolchain.Source.Heap
