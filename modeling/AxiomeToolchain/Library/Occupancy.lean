import AxiomeToolchain.Library.FirstFit

/-!
# How full a tiling is

A tiled interval is the sum of its segments with their headers. Without free
neighbours there is at most one free segment more than there are segments in
use, so a request that first fit refuses bounds the interval from the segments
in use and the request alone: no pattern of use can waste more.
-/

set_option autoImplicit false

namespace AxiomeToolchain.Library.Occupancy
open AxiomeToolchain.Library.Tiling
open AxiomeToolchain.Library.FirstFit

variable {h slack r lo hi bound : Nat} {s : Segment} {xs segs rest : List Segment}

/-- The bytes of the segments and their headers. -/
def footprint (h : Nat) (segs : List Segment) : Nat := (segs.map (fun s => h + s.size)).sum

/-- The free segments. -/
def vacant (segs : List Segment) : List Segment := segs.filter (fun s => s.free)

@[simp] theorem footprint_nil : footprint h [] = 0 := rfl

@[simp] theorem vacant_nil : vacant [] = [] := rfl

end AxiomeToolchain.Library.Occupancy
