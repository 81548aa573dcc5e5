import AxiomeToolchain.Source.HeapRequests
import AxiomeToolchain.Source.StringBuild

/-!
# A client that builds strings in its allocations

The calls of the heap client together with memcpy, memmove, memset, strcpy,
strncpy, strcat, strncat and strdup on places inside its allocations. What such
a call stores is a list function of the client's view, so that every call is a
write the view already knows.
-/

set_option autoImplicit false

namespace AxiomeToolchain.Source.HeapStrings
open AxiomeToolchain.Library.ByteMemory
open AxiomeToolchain.Library.CInt
open AxiomeToolchain.Library.Tiling
open AxiomeToolchain.Library.FirstFit
open AxiomeToolchain.Library.Runs
open AxiomeToolchain.Library.TerminatedString
open AxiomeToolchain.Source.StringCopy
open AxiomeToolchain.Source.StringBuild
open AxiomeToolchain.Source.Heap
open AxiomeToolchain.Source.Stdio (CString)

/-- `ptr + offset` for a pointer the client holds. -/
structure Place where
  ptr : Nat
  offset : Nat

def Place.address (q : Place) : Nat := q.ptr + q.offset

/-- The bytes of the allocation from the place on. -/
def behind (view : View) (q : Place) : List UInt8 := (view.dataAt q.ptr).drop q.offset

/-- The calls of string.c that store to their first argument. -/
inductive Store where
  | memcpy (src : Place) (n : Nat)
  | memmove (src : Place) (n : Nat)
  | memset (c : Int) (n : Nat)
  | strcpy (src : Place)
  | strncpy (src : Place) (n : Nat)
  | strcat (src : Place)
  | strncat (src : Place) (n : Nat)

def Store.run (m : Memory) (dst : Nat) : Store → Option Memory
  | .memcpy src n => some (StringCopy.memcpy m dst src.address n)
  | .memmove src n => some (StringCopy.memmove m dst src.address n)
  | .memset c n => some (StringCopy.memset m dst c n)
  | .strcpy src => StringBuild.strcpy m dst src.address
  | .strncpy src n => some (StringBuild.strncpy m dst src.address n)
  | .strcat src => StringBuild.strcat m dst src.address
  | .strncat src n => StringBuild.strncat m dst src.address n

/-! ## What a call stores, from the view alone -/

def Store.bytes (view : View) : Store → List UInt8
  | .memcpy src n | .memmove src n => (behind view src).take n
  | .memset c n => List.replicate n (UInt8.ofInt c)
  | .strcpy src | .strcat src => content (behind view src) ++ [0]
  | .strncpy src n =>
    let text := content ((behind view src).take n)
    text ++ List.replicate (n - text.length) 0
  | .strncat src n => content ((behind view src).take n) ++ [0]

/-- How far behind the place the stores start. -/
def Store.shift (view : View) (dst : Place) : Store → Nat
  | .strcat _ | .strncat _ _ => (content (behind view dst)).length
  | _ => 0

/-- The place a call reads and how many bytes, if an overlap matters to it. -/
def Store.reads (view : View) : Store → Option (Place × Nat)
  | .memcpy src n => some (src, n)
  | .memmove _ _ | .memset _ _ => none
  | .strcpy src | .strcat src => some (src, (content (behind view src)).length + 1)
  | .strncpy src n | .strncat src n =>
    some (src, min n ((content ((behind view src).take n)).length + 1))

/-- The bytes a call needs are there: the count, or a terminator. -/
def Store.Readable (view : View) (dst : Place) : Store → Prop
  | .memcpy src n | .memmove src n => n ≤ (behind view src).length
  | .memset _ _ => True
  | .strcpy src => (0 : UInt8) ∈ behind view src
  | .strncpy src n => n ≤ (behind view src).length ∨ (0 : UInt8) ∈ behind view src
  | .strcat src => (0 : UInt8) ∈ behind view src ∧ (0 : UInt8) ∈ behind view dst
  | .strncat src n => (n ≤ (behind view src).length ∨ (0 : UInt8) ∈ behind view src) ∧
    (0 : UInt8) ∈ behind view dst

/-- What C asks of the caller: a live destination with room, a source that can be
read, and no store before the read of its byte where both are in one allocation. -/
structure Store.Allowed (view : View) (dst : Place) (call : Store) : Prop where
  target : dst.ptr ∈ view.pointers
  readable : call.Readable view dst
  room : dst.offset + call.shift view dst + (call.bytes view).length ≤ (view.dataAt dst.ptr).length
  apart : ∀ src n, call.reads view = some (src, n) → src.ptr = dst.ptr →
    dst.offset + call.shift view dst ≤ src.offset ∨
      src.offset + n ≤ dst.offset + call.shift view dst

inductive Request where
  | heap (op : Op)
  | store (dst : Place) (call : Store)
  | strdup (src : Place)

def Request.allowed (c : Tenant) : Request → Prop
  | .heap op => op.allowed c
  | .store dst call => call.Allowed c.view dst
  | .strdup src => (0 : UInt8) ∈ behind c.view src

def step (site : Site) (c : Tenant) : Request → Option (Tenant × Nat)
  | .heap op => c.step site op
  | .store dst call =>
    (call.run c.state.memory dst.address).map (fun m =>
      (⟨{ c.state with memory := m },
        c.view.overwrite dst.ptr (dst.offset + call.shift c.view dst) (call.bytes c.view)⟩,
        dst.address))
  | .strdup src =>
    (StringBuild.strdup site c.state src.address).map (fun (st, q) =>
      (⟨st, if q = null then c.view else ⟨q, content (behind c.view src) ++ [0]⟩ :: c.view⟩, q))

variable {site : Site} {c c' : Tenant} {st : State} {m : Memory} {n p q : Nat} {a b : Allocation}
  {s : Segment} {segs out : List Segment} {view : View} {src dst : Place} {call : Store}
  {request : Request}

/-! ## Places and the bytes behind them -/

theorem behind_absent (absent : src.ptr ∉ view.pointers) : behind view src = [] := by
  have missing : view.find? (fun a => a.ptr = src.ptr) = none :=
    List.find?_eq_none.mpr (fun a member => by
      have different : a.ptr ≠ src.ptr := fun same => absent (same ▸ List.mem_map_of_mem member)
      simpa using different)
  rw [behind, View.dataAt, missing]
  exact List.drop_nil

theorem behind_inside (iso : Isolated site c segs) (nonempty : behind c.view src ≠ []) :
    ∃ a ∈ c.view, a.ptr = src.ptr ∧ src.offset + (behind c.view src).length = a.data.length := by
  have live : src.ptr ∈ c.view.pointers := by
    by_contra absent
    exact nonempty (behind_absent absent)
  obtain ⟨a, member, same⟩ := Isolated.mem_view live
  have data := View.dataAt_of_mem iso.inv.live_nodup member
  rw [same] at data
  refine ⟨a, member, same, ?_⟩
  have long : 0 < (behind c.view src).length := List.length_pos_iff.mpr nonempty
  rw [behind, data, List.length_drop] at long ⊢
  omega

theorem length_lt (iso : Isolated site c segs) (member : a ∈ c.view) :
    a.data.length < heapSize := by
  obtain ⟨s, in_segs, -, -, room⟩ := iso.sized a member
  have bounds := iso.inv.heap.tiles.bounds in_segs
  have header := blockSize_pos
  simp only [Segment.stop] at bounds
  omega

/-- Two allocations lie one behind the other. -/
theorem allocations_apart (iso : Isolated site c segs) (ha : a ∈ c.view) (hb : b ∈ c.view)
    (different : a.ptr ≠ b.ptr) :
    a.ptr + a.data.length ≤ b.ptr ∨ b.ptr + b.data.length ≤ a.ptr := by
  obtain ⟨s, in_segs, -, at_s, room⟩ := iso.sized a ha
  obtain ⟨t, in_list, -, at_t, room'⟩ := iso.sized b hb
  have blocks := payload_off_block iso.inv.heap.tiles in_segs in_list
    (fun equal => different (by rw [at_s, at_t, equal]))
  simp only [Segment.stop] at blocks
  omega

/-! ## Every store is a write of its bytes -/

/-- What a bounded reader reads of a buffer lies in it. -/
theorem bounded_inside {data : List UInt8} (readable : n ≤ data.length ∨ (0 : UInt8) ∈ data) :
    min n ((content (data.take n)).length + 1) ≤ data.length := by
  by_cases long : n ≤ data.length
  · exact (Nat.min_le_left _ _).trans long
  · rw [List.take_of_length_le (Nat.le_of_not_le long)]
    exact (Nat.min_le_right _ _).trans (content_length_lt (readable.resolve_left long))

theorem Store.reads_inside (readable : call.Readable view dst)
    (reads : call.reads view = some (src, n)) : n ≤ (behind view src).length := by
  cases call with
  | memcpy place k =>
    cases reads
    exact readable
  | memmove place k => cases reads
  | memset c k => cases reads
  | strcpy place =>
    cases reads
    exact content_length_lt readable
  | strncpy place k =>
    cases reads
    exact bounded_inside readable
  | strcat place =>
    cases reads
    exact content_length_lt readable.1
  | strncat place k =>
    cases reads
    exact bounded_inside readable.1

/-- No store comes before the read of its byte: another allocation is disjoint. -/
theorem Store.Allowed.ahead (iso : Isolated site c segs) (ok : call.Allowed c.view dst)
    (reads : call.reads c.view = some (src, n)) :
    dst.address + call.shift c.view dst ≤ src.address ∨
      src.address + n ≤ dst.address + call.shift c.view dst := by
  unfold Place.address
  by_cases same : src.ptr = dst.ptr
  · have offsets := ok.apart src n reads same
    omega
  · have inside := Store.reads_inside ok.readable reads
    by_cases empty : behind c.view src = []
    · rw [empty, List.length_nil] at inside
      omega
    · obtain ⟨a, target, at_dst⟩ := Isolated.mem_view ok.target
      obtain ⟨b, source, at_src, long⟩ := behind_inside iso empty
      have room := ok.room
      have data := View.dataAt_of_mem iso.inv.live_nodup target
      rw [at_dst] at data
      rw [data] at room
      have apart := allocations_apart iso target source (by rw [at_dst, at_src]; exact Ne.symm same)
      omega

end AxiomeToolchain.Source.HeapStrings
