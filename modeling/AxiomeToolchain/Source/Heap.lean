import AxiomeToolchain.Library.CInt
import AxiomeToolchain.Source.StringCopy

/-!
# The heap of the C library

sdk/src/stdlib.c:7-154. The memory is bytes; a block header is the 24 bytes of
`block_t` (`size` at 0, `free` at 8, four bytes of padding, `next` at 16) and
pointers are addresses, with NULL the address 0. The list walks get a step
budget; `none` is a walk that is still running when it is used up. `size_t`
arithmetic wraps as in C, pointer arithmetic does not wrap.
-/

set_option autoImplicit false

namespace AxiomeToolchain.Source.Heap
open AxiomeToolchain.Library.ByteMemory
open AxiomeToolchain.Library.CInt
open AxiomeToolchain.Source.StringCopy

def heapSize : Nat := 4 * 1024 * 1024
def blockSize : Nat := 24
def null : Nat := 0
def enomem : Int := 12

/-- Where the linker put the array `heap`: not at NULL, and inside the address space. -/
structure Site where
  base : Nat
  base_pos : 0 < base
  fits : base + heapSize ≤ wordModulus

/-- The static variables of stdlib.c the allocator uses, and the memory. -/
structure State where
  memory : Memory
  heapInit : Bool
  freeList : Nat
  errno : Int

def align16 (x : Nat) : Nat := u64Add x 15 &&& (wordModulus - 1 - 15)

def readSize (m : Memory) (block : Nat) : Nat := readLE m block 8
def readFree (m : Memory) (block : Nat) : Nat := readLE m (block + 8) 4
def readNext (m : Memory) (block : Nat) : Nat := readLE m (block + 16) 8

def writeSize (m : Memory) (block v : Nat) : Memory := writeLE m block v 8
def writeFree (m : Memory) (block v : Nat) : Memory := writeLE m (block + 8) v 4
def writeNext (m : Memory) (block v : Nat) : Memory := writeLE m (block + 16) v 8

def initHeap (site : Site) (s : State) : State :=
  if s.heapInit then s
  else
    let m := writeSize s.memory site.base (heapSize - blockSize)
    let m := writeFree m site.base 1
    let m := writeNext m site.base null
    { s with memory := m, heapInit := true, freeList := site.base }

def splitBlock (m : Memory) (block size : Nat) : Memory :=
  if u64Add (u64Add size blockSize) 16 ≤ readSize m block then
    let newBlock := block + blockSize + size
    let m := writeSize m newBlock (u64Sub (u64Sub (readSize m block) size) blockSize)
    let m := writeFree m newBlock 1
    let m := writeNext m newBlock (readNext m block)
    let m := writeSize m block size
    writeNext m block newBlock
  else m

/-- The budget of a list walk. Distinct headers inside the heap are fewer. -/
def walkBudget : Nat := heapSize

/-- `while (curr && curr->next)` of merge_free_blocks. -/
def mergeLoop : Nat → Memory → Nat → Option Memory
  | 0, _, _ => none
  | budget + 1, m, curr =>
    if curr = null ∨ readNext m curr = null then some m
    else if readFree m curr ≠ 0 ∧ readFree m (readNext m curr) ≠ 0 then
      let m := writeSize m curr
        (u64Add (readSize m curr) (u64Add blockSize (readSize m (readNext m curr))))
      let m := writeNext m curr (readNext m (readNext m curr))
      mergeLoop budget m curr
    else mergeLoop budget m (readNext m curr)

def mergeFreeBlocks (s : State) : Option State :=
  (mergeLoop walkBudget s.memory s.freeList).map (fun m => { s with memory := m })

/-- `while (curr)` of malloc up to the first free block that is large enough;
NULL when the list ends first. -/
def findFit (m : Memory) (size : Nat) : Nat → Nat → Option Nat
  | 0, _ => none
  | budget + 1, curr =>
    if curr = null then some null
    else if readFree m curr ≠ 0 ∧ size ≤ readSize m curr then some curr
    else findFit m size budget (readNext m curr)

def malloc (site : Site) (s : State) (n : Nat) : Option (State × Nat) :=
  if n = 0 then some (s, null)
  else
    let s := initHeap site s
    let size := align16 n
    (findFit s.memory size walkBudget s.freeList).map (fun curr =>
      if curr = null then ({ s with errno := enomem }, null)
      else
        let m := splitBlock s.memory curr size
        let m := writeFree m curr 0
        ({ s with memory := m }, curr + blockSize))

def free (s : State) (p : Nat) : Option State :=
  if p = null then some s
  else
    let block := p - blockSize
    mergeFreeBlocks { s with memory := writeFree s.memory block 1 }

def calloc (site : Site) (s : State) (nmemb size : Nat) : Option (State × Nat) :=
  if nmemb = 0 ∨ size = 0 then some (s, null)
  else if nmemb > (wordModulus - 1) / size then some ({ s with errno := enomem }, null)
  else
    let total := u64Mul nmemb size
    (malloc site s total).map (fun (s, p) =>
      if p ≠ null then ({ s with memory := memset s.memory p 0 total }, p) else (s, p))

def realloc (site : Site) (s : State) (ptr size : Nat) : Option (State × Nat) :=
  if ptr = null then malloc site s size
  else if size = 0 then (free s ptr).map (fun s => (s, null))
  else
    let block := ptr - blockSize
    if size ≤ readSize s.memory block then some (s, ptr)
    else
      (malloc site s size).bind (fun (s, newPtr) =>
        if newPtr = null then some (s, null)
        else
          let held := readSize s.memory block
          let m := memcpy s.memory newPtr ptr (if held < size then held else size)
          (free { s with memory := m } ptr).map (fun s => (s, newPtr)))

/-- A header as the program reads it. -/
structure Block where
  addr : Nat
  size : Nat
  free : Nat
  next : Nat
  deriving DecidableEq, Repr

def blockAt (m : Memory) (p : Nat) : Block := ⟨p, readSize m p, readFree m p, readNext m p⟩

/-- The headers met from `p` on by following `next`. -/
def walk (m : Memory) : Nat → Nat → List Block
  | 0, _ => []
  | budget + 1, p => if p = null then [] else blockAt m p :: walk m budget (readNext m p)

/-- The block list reachable from free_list. A heap that no call has initialised
yet counts as the list init_heap makes, which is what the first call sees. -/
def blockList (site : Site) (s : State) : List Block :=
  walk (initHeap site s).memory walkBudget (initHeap site s).freeList

end AxiomeToolchain.Source.Heap
