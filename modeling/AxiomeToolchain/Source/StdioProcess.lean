import AxiomeToolchain.Source.HeapCalls
import AxiomeToolchain.Source.StdioFiles

/-!
# A process with open streams

Client, heap and the kernel's descriptor table. The client uses its allocations
as before, opens and closes streams and reads and writes through them; the
kernel answers every system call as it likes, as long as a descriptor it hands
out was not in use. A close it refuses may or may not release the descriptor.
-/

set_option autoImplicit false

namespace AxiomeToolchain.Source.StdioProcess
open AxiomeToolchain.Library.ByteMemory
open AxiomeToolchain.Library.CInt
open AxiomeToolchain.Library.Tiling
open AxiomeToolchain.Library.Runs
open AxiomeToolchain.Source.Heap
open AxiomeToolchain.Source.Syscall (Long SystemCall Failed)
open AxiomeToolchain.Source.StdioFiles

/-- What the client knows of a stream it opened: its address and fields. -/
structure OpenFile where
  ptr : Nat
  fd : Int
  flags : Int
  eof : Int
  err : Int

/-- The 48 bytes of the object, without a buffer. -/
def OpenFile.data (f : OpenFile) : List UInt8 :=
  digits (image f.fd) 4 ++ digits (image f.flags) 4 ++ digits (image f.eof) 4 ++
    digits (image f.err) 4 ++ digits null 8 ++ digits 0 8 ++ digits 0 8 ++ digits 0 8

def OpenFile.allocation (f : OpenFile) : Allocation := ⟨f.ptr, f.data⟩

structure Process where
  state : State
  files : List OpenFile
  view : View
  table : List Int
  others : List Int

/-- Every allocation there is: the FILE objects and the client's own. -/
def Process.allocations (p : Process) : View := p.files.map OpenFile.allocation ++ p.view

/-- The descriptor table after the system calls of a function. `kept` says what
the kernel does with the descriptor of a close that fails. -/
def tableAfter (kept : Bool) (table : List Int) : Trace → List Int
  | [] => table
  | (.openPath _ _, raw) :: later => tableAfter kept (if Failed raw then table else raw :: table) later
  | (.close fd, raw) :: later =>
    tableAfter kept (if Failed raw ∧ kept then table else table.erase fd.toInt) later
  | _ :: later => tableAfter kept table later

/-- The descriptors a function's failed closes left open. -/
def leftOpen (kept : Bool) : Trace → List Int
  | [] => []
  | (.close fd, raw) :: later =>
    if Failed raw ∧ kept then fd.toInt :: leftOpen kept later else leftOpen kept later
  | _ :: later => leftOpen kept later

/-- Every system call names a descriptor that is open when it is made. -/
def Sound (kept : Bool) (table : List Int) : Trace → Prop
  | [] => True
  | (call, raw) :: later =>
    (match call with
      | .close fd | .read fd _ _ | .write fd _ _ => fd.toInt ∈ table
      | _ => True) ∧ Sound kept (tableAfter kept table [(call, raw)]) later

inductive Action where
  | heap (op : Op)
  | fopen (path : Long) (mode : Option (List UInt8)) (opened closed : Int) (kept : Bool)
  | fclose (stream : Nat) (closed : Int) (kept : Bool)
  | fread (a : Allocation) (offset size nmemb stream : Nat) (raw : Int) (data : List UInt8)
  | fwrite (ptr size nmemb stream : Nat) (raw : Int)
  | clearerr (stream : Nat)

/-- Whether the kernel keeps the descriptor of a close that fails in this call. -/
def Action.kept : Action → Bool
  | .fopen _ _ _ _ kept | .fclose _ _ kept => kept
  | _ => true

/-- A close is answered by 0 or an error. -/
def CloseAnswer (raw : Int) : Prop := Failed raw ∨ raw = 0

def Process.Streams (p : Process) (stream : Nat) : Prop :=
  stream = null ∨ stream ∈ p.files.map OpenFile.ptr

/-- What the client may call and the kernel may answer. -/
def Action.allowed {site : Site} (std : Standard site) (p : Process) : Action → Prop
  | .heap op => op.allowed ⟨p.state, p.view⟩
  | .fopen _ mode opened closed _ =>
    (∀ m, mode = some m → (0 : UInt8) ∈ m) ∧
      (Failed opened ∨ 0 ≤ opened ∧ opened ≤ intMax ∧ opened ∉ p.table) ∧ CloseAnswer closed
  | .fclose stream closed _ =>
    (p.Streams stream ∨ stream = std.stdin ∨ stream = std.stdout ∨ stream = std.stderr) ∧
      CloseAnswer closed
  | .fread a offset size nmemb stream raw data =>
    p.Streams stream ∧ a ∈ p.view ∧ offset + size * nmemb ≤ a.data.length ∧
      (Failed raw ∧ data = [] ∨ raw = data.length ∧ data.length ≤ size * nmemb)
  | .fwrite _ size nmemb stream raw =>
    p.Streams stream ∧ size * nmemb < wordModulus ∧ (Failed raw ∨ 0 ≤ raw ∧ raw ≤ size * nmemb)
  | .clearerr stream => p.Streams stream

def markFile (files : List OpenFile) (stream : Nat) (mark : OpenFile → OpenFile) : List OpenFile :=
  files.map (fun f => if f.ptr = stream then mark f else f)

/-- The `flags` of a stream that fopen opened. -/
def openedFlags (mode : Option (List UInt8)) : Int :=
  ((parseMode mode).join.map Mode.flags).getD 0

/-- One call: the process after it, what it returned and the system calls it made. -/
def step {site : Site} (std : Standard site) (p : Process) : Action → Option (Process × Int × Trace)
  | .heap op =>
    (op.run site p.state).map (fun (st, q) =>
      ({ p with state := st, view := p.view.after st.memory q op }, q, []))
  | .fopen path mode opened closed kept =>
    (StdioFiles.fopen site p.state path mode opened closed).map (fun (st, f, trace) =>
      ({ p with
          state := st
          files := if f = null then p.files else ⟨f, opened, openedFlags mode, 0, 0⟩ :: p.files
          table := tableAfter kept p.table trace
          others := leftOpen kept trace ++ p.others }, f, trace))
  | .fclose stream closed kept =>
    (StdioFiles.fclose std p.state stream closed).map (fun (st, r, trace) =>
      ({ p with
          state := st
          files := if trace = [] then p.files else p.files.filter (fun f => f.ptr ≠ stream)
          table := tableAfter kept p.table trace
          others := leftOpen kept trace ++ p.others }, r, trace))
  | .fread a offset size nmemb stream raw data =>
    let (st, n, trace) := StdioFiles.fread p.state (a.ptr + offset) size nmemb stream raw data
    if trace = [] then some ({ p with state := st }, n, trace)
    else
      some ({ p with
        state := st
        files := markFile p.files stream (fun f =>
          if Failed raw then { f with err := 1 } else if raw = 0 then { f with eof := 1 } else f)
        view := p.view.overwrite a.ptr offset data }, n, trace)
  | .fwrite ptr size nmemb stream raw =>
    let (st, n, trace) := StdioFiles.fwrite p.state ptr size nmemb stream raw
    if trace = [] then some ({ p with state := st }, n, trace)
    else
      some ({ p with
        state := st
        files := markFile p.files stream (fun f => if Failed raw then { f with err := 1 } else f) },
        n, trace)
  | .clearerr stream =>
    some ({ p with
      state := { p.state with memory := StdioFiles.clearerr p.state.memory stream }
      files := markFile p.files stream (fun f => { f with eof := 0, err := 0 }) }, 0, [])

def Process.initial (p : Process) : Prop :=
  p.state.heapInit = false ∧ p.state.freeList = null ∧ p.files = [] ∧ p.view = [] ∧
    p.table = p.others ∧ p.table.Nodup

def processes {site : Site} (std : Standard site) : System Process Action where
  initial := Process.initial
  allowed p action := action.allowed std p
  step p action := (step std p action).map Prod.fst

variable {site : Site} {std : Standard site} {p p' : Process} {st : State} {m : Memory} {n q : Nat}
  {f : OpenFile} {a : Allocation} {segs : List Segment} {view : View} {files : List OpenFile}

/-! ## The object in memory -/

@[simp] theorem data_length (f : OpenFile) : f.data.length = fileSize := by
  simp [OpenFile.data, fileSize]

theorem bytesAt_part (m : Memory) (a n offset width : Nat) (inside : offset + width ≤ n) :
    bytesAt m (a + offset) width = ((bytesAt m a n).drop offset).take width := by
  obtain ⟨rest, rfl⟩ := Nat.exists_eq_add_of_le inside
  rw [Nat.add_assoc, bytesAt_add m a offset, List.drop_left' (bytesAt_length m a offset),
    bytesAt_take _ _ _ _ (Nat.le_add_right _ _)]

/-- An int of the object that holds the image of `v` is read as `v`. -/
theorem readInt_held {v : Int} (low : -2147483648 ≤ v) (high : v ≤ 2147483647) (offset : Nat)
    (inside : offset + 4 ≤ fileSize) (held : bytesAt m f.ptr fileSize = f.data)
    (field : (f.data.drop offset).take 4 = digits (image v) 4) : readInt m (f.ptr + offset) = v := by
  have bytes := bytesAt_part m f.ptr fileSize offset 4 inside
  rw [held, field] at bytes
  rw [readInt, readLE_of_digits 4 m _ _ bytes]
  unfold image wrapInt
  omega

/-- The fields stay in the range of their type. -/
structure OpenFile.Ranges (f : OpenFile) : Prop where
  fd : 0 ≤ f.fd ∧ f.fd ≤ intMax
  flags : 0 ≤ f.flags ∧ f.flags ≤ 3
  eof : f.eof = 0 ∨ f.eof = 1
  err : f.err = 0 ∨ f.err = 1

/-- The object at `f.ptr` reads as the client knows it, and has no buffer. -/
structure OpenFile.Reads (f : OpenFile) (m : Memory) : Prop where
  fd : readFd m f.ptr = f.fd
  flags : readFlags m f.ptr = f.flags
  eof : readEof m f.ptr = f.eof
  err : readErr m f.ptr = f.err
  buf : readBuf m f.ptr = null

theorem reads_of_held (ranges : f.Ranges) (held : bytesAt m f.ptr fileSize = f.data) : f.Reads m where
  fd := by
    have range := ranges.fd
    unfold intMax at range
    exact readInt_held (by omega) (by omega) 0 (by decide) held rfl
  flags := by
    have range := ranges.flags
    exact readInt_held (by omega) (by omega) 4 (by decide) held rfl
  eof := by
    have range := ranges.eof
    exact readInt_held (by omega) (by omega) 8 (by decide) held rfl
  err := by
    have range := ranges.err
    exact readInt_held (by omega) (by omega) 12 (by decide) held rfl
  buf := by
    have bytes := bytesAt_part m f.ptr fileSize 16 8 (by decide)
    rw [held] at bytes
    have field : (f.data.drop 16).take 8 = digits null 8 := rfl
    rw [field] at bytes
    exact readLE_of_digits 8 m _ _ bytes

theorem initFile_eq (m : Memory) (q : Nat) (fd flags : Int) :
    initFile m q fd flags = writeBytes m q (OpenFile.mk q fd flags 0 0).data := by
  simp only [initFile, writeEof, writeErr, writeLE_eq_writeBytes, OpenFile.data, writeBytes_append,
    List.length_append, digits_length]

theorem writeErr_eq (m : Memory) (q : Nat) (v : Int) :
    writeErr m q v = writeBytes m (q + 12) (digits (image v) 4) :=
  writeLE_eq_writeBytes 4 m (q + 12) (image v)

theorem writeEof_eq (m : Memory) (q : Nat) (v : Int) :
    writeEof m q v = writeBytes m (q + 8) (digits (image v) 4) :=
  writeLE_eq_writeBytes 4 m (q + 8) (image v)

theorem data_err (f : OpenFile) (v : Int) :
    Heap.overwrite f.data 12 (digits (image v) 4) = { f with err := v }.data := rfl

theorem data_eof (f : OpenFile) (v : Int) :
    Heap.overwrite f.data 8 (digits (image v) 4) = { f with eof := v }.data := rfl

/-! ## Views in two parts -/

theorem Isolated.perm {v v' : View} (iso : Isolated site ⟨st, v⟩ segs) (perm : v.Perm v') :
    Isolated site ⟨st, v'⟩ segs where
  inv := {
    heap := iso.inv.heap
    separated := iso.inv.separated
    live := (perm.map Allocation.ptr).symm.trans iso.inv.live
    ready := by
      intro nonempty
      apply iso.inv.ready
      intro empty
      have pointers := perm.map Allocation.ptr
      rw [show v.map Allocation.ptr = [] from empty] at pointers
      exact nonempty pointers.nil_eq.symm }
  sized := fun a member => iso.sized a (perm.mem_iff.mpr member)
  held := fun a member => iso.held a (perm.mem_iff.mpr member)

theorem pointers_append (v w : View) : View.pointers (v ++ w) = v.pointers ++ w.pointers :=
  List.map_append

theorem remove_append {v w : View} {x : Nat} (absent : x ∉ v.pointers) :
    View.remove (v ++ w) x = v ++ w.remove x := by
  have kept := View.remove_absent absent
  unfold View.remove at kept ⊢
  rw [List.filter_append, kept]

theorem dataAt_append {v w : View} {x : Nat} (absent : x ∉ v.pointers) :
    View.dataAt (v ++ w) x = w.dataAt x := by
  have missing : v.find? (fun a => a.ptr = x) = none :=
    List.find?_eq_none.mpr (fun a member => by
      have different : a.ptr ≠ x := fun same => absent (same ▸ List.mem_map_of_mem member)
      simpa using different)
  unfold View.dataAt
  rw [List.find?_append, missing, Option.none_or]

theorem overwrite_absent {v : View} {x : Nat} (absent : x ∉ v.pointers) (offset : Nat)
    (bytes : List UInt8) : v.overwrite x offset bytes = v := by
  refine (List.map_congr_left (fun a member => ?_)).trans (List.map_id v)
  have different : a.ptr ≠ x := fun same => absent (same ▸ List.mem_map_of_mem member)
  simp [different]

theorem overwrite_append (v w : View) (x offset : Nat) (bytes : List UInt8) :
    View.overwrite (v ++ w) x offset bytes = v.overwrite x offset bytes ++ w.overwrite x offset bytes :=
  List.map_append

/-- The allocation a heap call of the client names. -/
def target : Op → Nat
  | .malloc _ | .calloc _ _ => null
  | .realloc p _ | .free p | .write p _ _ => p

/-- A call on the second part of a view leaves the first part alone. -/
theorem after_append {v w : View} {op : Op} (absent : target op ∉ v.pointers) :
    (View.after (v ++ w) m q op).Perm (v ++ w.after m q op) := by
  cases op with
  | malloc n =>
    simp only [View.after]
    split
    · rfl
    · exact List.perm_middle.symm
  | calloc nmemb size =>
    simp only [View.after]
    split
    · rfl
    · exact List.perm_middle.symm
  | realloc x n =>
    simp only [View.after, remove_append (x := x) absent, dataAt_append (x := x) absent]
    split
    · split
      · rfl
      · exact List.perm_middle.symm
    · split
      · rfl
      · split
        · rfl
        · exact List.perm_middle.symm
  | free x => rw [View.after, View.after, remove_append (x := x) absent]
  | write x offset bytes =>
    rw [View.after, View.after, overwrite_append, overwrite_absent (x := x) absent]

theorem mark_allocations {x offset : Nat} {bytes : List UInt8} (mark : OpenFile → OpenFile)
    (same : ∀ f, (mark f).ptr = f.ptr)
    (marked : ∀ f, Heap.overwrite f.data offset bytes = (mark f).data) :
    View.overwrite (files.map OpenFile.allocation) x offset bytes =
      (markFile files x mark).map OpenFile.allocation := by
  simp only [View.overwrite, markFile, List.map_map]
  apply List.map_congr_left
  intro f _
  simp only [Function.comp_apply]
  by_cases here : f.ptr = x
  · rw [if_pos (show f.allocation.ptr = x from here), if_pos here]
    simp only [OpenFile.allocation, marked, same]
  · rw [if_neg (show ¬ f.allocation.ptr = x from here), if_neg here]

/-! ## The invariant -/

/-- The heap holds every allocation, FILE objects included; the descriptor table
is one descriptor for every open stream and those no stream owns. -/
structure Held (site : Site) (p : Process) (segs : List Segment) : Prop where
  iso : Isolated site ⟨p.state, p.allocations⟩ segs
  ranges : ∀ f ∈ p.files, f.Ranges
  table : p.table.Perm (p.files.map OpenFile.fd ++ p.others)
  nodup : p.table.Nodup

theorem Held.pointers (held : Held site p segs) :
    (p.files.map OpenFile.ptr ++ p.view.pointers).Nodup := by
  have nodup : p.allocations.pointers.Nodup := held.iso.inv.live_nodup
  rw [Process.allocations, pointers_append] at nodup
  simp only [View.pointers, List.map_map] at nodup
  exact nodup

theorem Held.file_member (_held : Held site p segs) (member : f ∈ p.files) :
    f.allocation ∈ p.allocations :=
  List.mem_append_left _ (List.mem_map_of_mem member)

theorem Held.reads (held : Held site p segs) (member : f ∈ p.files) : f.Reads p.state.memory := by
  have bytes := held.iso.held f.allocation (held.file_member member)
  rw [show f.allocation.data.length = fileSize from data_length f] at bytes
  exact reads_of_held (held.ranges f member) bytes

/-- A stream is not NULL, is none of the client's own allocations, and is not a
standard stream, which lie outside the heap. -/
theorem Held.stream_ne_null (held : Held site p segs) (member : f ∈ p.files) : f.ptr ≠ null :=
  held.iso.pointer_ne_null (List.mem_map_of_mem (held.file_member member))

theorem Held.stream_not_own (held : Held site p segs) (member : f ∈ p.files) :
    f.ptr ∉ p.view.pointers :=
  fun own => (List.nodup_append.mp held.pointers).2.2 f.ptr (List.mem_map_of_mem member) _ own rfl

theorem Held.own_not_stream (held : Held site p segs) (member : a ∈ p.view) :
    a.ptr ∉ View.pointers (p.files.map OpenFile.allocation) := by
  intro stream
  obtain ⟨g, in_files, same⟩ := List.mem_map.mp stream
  obtain ⟨f, opened, rfl⟩ := List.mem_map.mp in_files
  have own : f.ptr ∈ p.view.pointers := by
    rw [show f.ptr = a.ptr from same]
    exact List.mem_map_of_mem member
  exact held.stream_not_own opened own

theorem Held.stream_not_standard (held : Held site p segs) (std : Standard site)
    (member : f ∈ p.files) :
    ¬ (f.ptr = std.stdin ∨ f.ptr = std.stdout ∨ f.ptr = std.stderr) := by
  obtain ⟨s, in_segs, -, at_s, room⟩ := held.iso.sized f.allocation (held.file_member member)
  have bounds := held.iso.inv.heap.tiles.bounds in_segs
  have start : f.ptr = s.start + blockSize := at_s
  have size : fileSize ≤ s.size := by
    rw [← data_length f]
    exact room
  have some_bytes : 0 < fileSize := by decide
  simp only [Segment.stop] at bounds
  have inside : ∀ x ∈ [std.stdin, std.stdout, std.stderr], f.ptr ≠ x := by
    intro x standard same
    have off := std.outside x standard
    omega
  simpa [not_or] using inside

theorem Held.initial (start : p.initial) : Held site p [initialSegment site] := by
  obtain ⟨uninitialised, empty_list, no_files, no_view, table, nodup⟩ := start
  refine ⟨?_, by simp [no_files], by rw [table, no_files]; rfl, nodup⟩
  rw [Process.allocations, no_files, no_view]
  exact Isolated.initial ⟨uninitialised, empty_list, rfl⟩

end AxiomeToolchain.Source.StdioProcess
