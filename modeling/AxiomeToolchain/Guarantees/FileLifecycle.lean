import AxiomeToolchain.Guarantees.HeapCanonical
import AxiomeToolchain.Source.StdioRuns

/-!
# Streams, their objects and their descriptors

Over every run of heap calls, fopen, fclose, fread, fwrite and clearerr with any
answers of the kernel. A stream owns one live FILE object and one descriptor,
both its own, from the fopen that returned it to its fclose; nothing leaks, and
no system call names a descriptor that is closed or belongs to another stream.
-/

set_option autoImplicit false

namespace AxiomeToolchain.Guarantees.FileLifecycle
open AxiomeToolchain.Library.ByteMemory
open AxiomeToolchain.Library.CInt
open AxiomeToolchain.Library.FirstFit (allocate)
open AxiomeToolchain.Library.Tiling
open AxiomeToolchain.Library.Runs
open AxiomeToolchain.Source.Heap
open AxiomeToolchain.Source
open AxiomeToolchain.Source.Syscall (Long Failed)
open AxiomeToolchain.Source.StdioFiles
open AxiomeToolchain.Source.StdioProcess
open AxiomeToolchain.Guarantees.HeapCanonical (initialBlock no_live_initial)

variable {site : Site} {std : Standard site} {p : Process} {segs : List Segment} {f : OpenFile}

theorem held_empty (held : Held site p segs) (no_files : p.files = []) (no_view : p.view = []) :
    blockList site p.state = [initialBlock site] := by
  have inv := held.iso.inv
  rw [Process.allocations, no_files, no_view] at inv
  exact no_live_initial inv rfl

/-- In every reachable state: each open stream's object reads, from memory, the
descriptor, flags and marks it has been given, and no buffer; streams and the
client's allocations are pairwise different pointers; the open descriptors are
exactly one for each stream and those no stream ever owned or whose close the
kernel refused; and once all is closed and freed the heap is its first block. -/
theorem streams_own (site : Site) (std : Standard site) (p : Process)
    (reach : Reachable (processes std) p) :
    (∀ f ∈ p.files, f.Reads p.state.memory) ∧
      (p.files.map OpenFile.ptr ++ p.view.pointers).Nodup ∧
      p.table.Perm (p.files.map OpenFile.fd ++ p.others) ∧ p.table.Nodup ∧
      (p.files = [] → p.view = [] → blockList site p.state = [initialBlock site]) := by
  obtain ⟨segs, held⟩ := reachable_held reach
  exact ⟨fun f member => held.reads member, held.pointers, held.table, held.nodup, held_empty held⟩

/-! ## A program that reads one file -/

def exampleStandard : Standard exampleSite := ⟨64, 112, 160, by decide⟩

def exampleProcess : Process := ⟨exampleStart.state, [], [], [0, 1, 2], [0, 1, 2]⟩

theorem exampleProcess_initial : exampleProcess.initial := ⟨rfl, rfl, rfl, rfl, rfl, by decide⟩

/-- fopen of some path with mode "r", answered by descriptor 3. -/
def exampleOpen : Action := .fopen 8192 (some [114, 0]) 3 0 true

/-- A buffer of 16 bytes, and a stream beside it. -/
theorem example_opened : ∃ p₁ p₂ q buffer,
    step exampleStandard exampleProcess (.heap (.malloc 16)) = some (p₁, 4120, []) ∧
      exampleOpen.allowed exampleStandard p₁ ∧
      step exampleStandard p₁ exampleOpen =
        some (p₂, ((q : Nat) : Int), [(openOf 8192 ⟨1, 0⟩, 3)]) ∧
      q ≠ null ∧ p₂.files = [⟨q, 3, 1, 0, 0⟩] ∧ p₂.view = [⟨4120, buffer⟩] ∧
      buffer.length = 16 ∧ p₂.table = [3, 0, 1, 2] ∧
      Run (processes exampleStandard) exampleProcess
        [⟨exampleProcess, .heap (.malloc 16), p₁⟩, ⟨p₁, exampleOpen, p₂⟩] p₂ := by
  have found : allocate blockSize 16 (align16 16) [initialSegment exampleSite] =
      some (⟨4096, 16, false⟩, [⟨4096, 16, false⟩, ⟨4136, 4194240, true⟩]) := by decide
  obtain ⟨st, got, iso, -⟩ := exampleTenant_isolated.malloc_some (by decide) (by decide) found
  let p₁ : Process := ⟨st, [], [⟨4120, bytesAt st.memory 4120 16⟩], [0, 1, 2], [0, 1, 2]⟩
  have run : step exampleStandard exampleProcess (.heap (.malloc 16)) = some (p₁, 4120, []) := by
    rw [step, show (Op.malloc 16).run exampleSite exampleProcess.state = some (st, 4120) from got]
    rfl
  have small : (processes exampleStandard).allowed exampleProcess (.heap (.malloc 16)) :=
    ⟨by decide, by decide⟩
  have whole := Run.single small (processes_step run)
  obtain ⟨segs, held⟩ := reachable_held (whole.reachable exampleProcess_initial)
  have allowed : exampleOpen.allowed exampleStandard p₁ :=
    ⟨fun m same => by cases same; decide, .inr ⟨by decide, by decide, by simp [p₁]⟩, .inr rfl⟩
  obtain ⟨p₂, q, _, _, opened, -, outcome, -⟩ :=
    held.fopen_cases exampleStandard 8192 (some [114, 0]) 3 0 true allowed
  have known : parseMode (some [114, 0]) = some (some ⟨1, 0⟩) := by decide
  have room : ¬ NoRoom exampleSite st fileSize := by
    rw [← no_room_iff iso.inv.heap]
    decide
  cases outcome with
  | rejected noMode => cases noMode.symm.trans known
  | denied _ failed => exact absurd failed (by decide)
  | full _ _ noRoom => exact absurd noRoom room
  | granted found _ _ nonnull _ files view table =>
    cases found.symm.trans known
    exact ⟨_, p₂, q, _, run, allowed, opened, nonnull, files, view, bytesAt_length _ _ _, table,
      whole.snoc allowed (processes_step opened)⟩

theorem streams_own_open_read : ∃ p₁ p₂ q trace,
    step exampleStandard exampleProcess (.heap (.malloc 16)) = some (p₁, 4120, []) ∧
      step exampleStandard p₁ exampleOpen = some (p₂, ((q : Nat) : Int), trace) ∧
      (⟨q, 3, 1, 0, 0⟩ : OpenFile).Reads p₂.state.memory ∧ q ≠ 4120 := by
  obtain ⟨p₁, p₂, q, buffer, first, -, second, -, files, view, -, -, run⟩ := example_opened
  obtain ⟨reads, pointers, -⟩ :=
    streams_own exampleSite exampleStandard p₂ (run.reachable exampleProcess_initial)
  refine ⟨p₁, p₂, q, _, first, second, reads _ (by simp [files]), ?_⟩
  simp only [files, view, View.pointers, List.map_cons, List.map_nil] at pointers
  simpa using pointers

/-! ## fopen -/

/-- fopen ends in one of four ways, told apart by the mode, the answer of open
and the free blocks of the heap. Where no object can be had the descriptor is
given back, and neither the heap nor the streams have changed. -/
theorem fopen_outcomes (site : Site) (std : Standard site) (p : Process)
    (reach : Reachable (processes std) p) (path : Long) (mode : Option (List UInt8))
    (opened closed : Int) (kept : Bool)
    (ok : (Action.fopen path mode opened closed kept).allowed std p) :
    ∃ p' q trace,
      step std p (.fopen path mode opened closed kept) = some (p', ((q : Nat) : Int), trace) ∧
        Opens site p path mode opened closed kept p' q trace := by
  obtain ⟨segs, held⟩ := reachable_held reach
  obtain ⟨p', q, trace, -, run, -, outcome, -⟩ :=
    held.fopen_cases std path mode opened closed kept ok
  exact ⟨p', q, trace, run, outcome⟩

/-- Mode "r" is granted descriptor 3; mode "x" is rejected without a system call. -/
theorem fopen_outcomes_read : ∃ p₁ p₂ q,
    step exampleStandard exampleProcess (.heap (.malloc 16)) = some (p₁, 4120, []) ∧
      step exampleStandard p₁ exampleOpen =
        some (p₂, ((q : Nat) : Int), [(openOf 8192 ⟨1, 0⟩, 3)]) ∧
      p₂.files = [⟨q, 3, 1, 0, 0⟩] ∧
      step exampleStandard p₂ (.fopen 8192 (some [120, 0]) 4 0 true) =
        some (p₂, ((null : Nat) : Int), []) := by
  obtain ⟨p₁, p₂, q, buffer, first, -, second, -, files, -, -, table, run⟩ := example_opened
  have start := exampleProcess_initial
  have last : (Action.fopen 8192 (some [120, 0]) 4 0 true).allowed exampleStandard p₂ :=
    ⟨fun m same => by cases same; decide, .inr ⟨by decide, by decide, by simp [table]⟩, .inr rfl⟩
  have unknown : parseMode (some [120, 0]) = some none := by decide
  obtain ⟨p₃, r, trace, rejected, outcome⟩ := fopen_outcomes exampleSite exampleStandard p₂
    (run.reachable start) 8192 (some [120, 0]) 4 0 true last
  cases outcome with
  | rejected => exact ⟨p₁, p₂, q, first, second, files, rejected⟩
  | denied found => cases found.symm.trans unknown
  | full found => cases found.symm.trans unknown
  | granted found => cases found.symm.trans unknown

/-! ## System calls -/

/-- The system calls of fread and fwrite on a stream that is open. -/
theorem trace_of_stream (held : Held site p segs) (member : f ∈ p.files) (ptr size nmemb : Nat)
    (raw : Int) (data : List UInt8) (call : Syscall.SystemCall) (answer : Int) :
    ((call, answer) ∈ (fread p.state ptr size nmemb f.ptr raw data).2.2 →
      ∃ buf len, call = .read (BitVec.ofInt 32 f.fd) buf len) ∧
    ((call, answer) ∈ (fwrite p.state ptr size nmemb f.ptr raw).2.2 →
      ∃ buf len, call = .write (BitVec.ofInt 32 f.fd) buf len) := by
  have fd := (held.reads member).fd
  constructor
  · intro made
    rw [fread] at made
    split at made
    · cases made
    · simp only [apply_ite Prod.snd, ite_self, List.mem_singleton, Prod.mk.injEq, fd] at made
      exact ⟨_, _, made.1⟩
  · intro made
    rw [fwrite] at made
    split at made
    · cases made
    · simp only [apply_ite Prod.snd, ite_self, List.mem_singleton, Prod.mk.injEq, fd] at made
      exact ⟨_, _, made.1⟩

/-- Every allowed call returns, and each of its system calls names a descriptor
that is open when it is made; the reads and writes of a stream name that
stream's descriptor, and so does the one close its fclose makes, after which
neither the stream nor, if the kernel agreed, the descriptor is open. -/
theorem calls_name_open_descriptors (site : Site) (std : Standard site) (p : Process)
    (reach : Reachable (processes std) p) :
    (∀ action : Action, action.allowed std p → ∃ p' r trace,
      step std p action = some (p', r, trace) ∧ Sound action.kept p.table trace ∧
        p'.table = tableAfter action.kept p.table trace) ∧
    ∀ f ∈ p.files,
      (∀ ptr size nmemb raw data call answer,
        ((call, answer) ∈ (fread p.state ptr size nmemb f.ptr raw data).2.2 →
          ∃ buf len, call = .read (BitVec.ofInt 32 f.fd) buf len) ∧
        ((call, answer) ∈ (fwrite p.state ptr size nmemb f.ptr raw).2.2 →
          ∃ buf len, call = .write (BitVec.ofInt 32 f.fd) buf len)) ∧
      ∀ closed kept, CloseAnswer closed → ∃ p' r,
        step std p (.fclose f.ptr closed kept) =
            some (p', r, [(.close (BitVec.ofInt 32 f.fd), closed)]) ∧
          f.ptr ∉ p'.files.map OpenFile.ptr ∧ (f.fd ∈ p'.table ↔ Failed closed ∧ kept = true) := by
  obtain ⟨segs, held⟩ := reachable_held reach
  refine ⟨fun action ok => ?_, fun f member => ⟨fun ptr size nmemb raw data call answer =>
    trace_of_stream held member ptr size nmemb raw data call answer, fun closed kept answer => ?_⟩⟩
  · obtain ⟨p', r, trace, -, run, -, sound, table⟩ := held.step ok
    exact ⟨p', r, trace, run, sound, table⟩
  · obtain ⟨p', r, segs', run, after, files, table⟩ := held.fclose_file std member closed kept
    refine ⟨p', r, run, ?_, ?_⟩
    · rw [files]
      intro still
      obtain ⟨g, in_files, same⟩ := List.mem_map.mp still
      simpa [same] using (List.mem_filter.mp in_files).2
    · rw [table]
      by_cases stays : Failed closed ∧ kept = true
      · rw [if_pos stays]
        exact iff_of_true (held.fd_open member) stays
      · rw [if_neg stays, held.nodup.mem_erase_iff]
        exact iff_of_false (fun both => both.1 rfl) stays

/-- A stream on descriptor 3 is read and closed: both calls name 3, which is open until then. -/
theorem calls_name_open_descriptors_read : ∃ p₂ p₃ p₄ buffer s r trace,
    Reachable (processes exampleStandard) p₂ ∧ p₂.table = [3, 0, 1, 2] ∧
      step exampleStandard p₂ (.fread buffer 0 1 8 s 2 [104, 105]) = some (p₃, 2, trace) ∧
      (∀ call answer, (call, answer) ∈ trace → ∃ buf len, call = .read 3 buf len) ∧
      step exampleStandard p₃ (.fclose s 0 true) = some (p₄, r, [(.close 3, 0)]) ∧
      s ∉ p₄.files.map OpenFile.ptr ∧ 3 ∉ p₄.table := by
  obtain ⟨p₁, p₂, s, buffer, -, -, -, nonnull, files, view, length, table, run⟩ := example_opened
  have opened := run.reachable exampleProcess_initial
  have member : (⟨s, 3, 1, 0, 0⟩ : OpenFile) ∈ p₂.files := by simp [files]
  have wanted : (Action.fread ⟨4120, buffer⟩ 0 1 8 s 2 [104, 105]).allowed exampleStandard p₂ :=
    ⟨.inr (List.mem_map_of_mem member), by simp [view], by simp [length], .inr ⟨rfl, by decide⟩⟩
  have asked : ¬ (s = null ∨ (4120 : Nat) + 0 = null ∨ (1 : Nat) = 0 ∨ (8 : Nat) = 0) := by
    simpa [null] using nonnull
  have read := step_fread exampleStandard p₂ ⟨4120, buffer⟩ 2 [104, 105] asked (by decide)
  have made : (fread p₂.state (4120 + 0) 1 8 s 2 [104, 105]).2.2 =
      [(readOf p₂.state.memory (4120 + 0) 1 8 s, 2)] := by
    rw [fread_done asked (by decide)]
  have names := fun call answer => (((calls_name_open_descriptors exampleSite exampleStandard p₂
    opened).2 _ member).1 (4120 + 0) 1 8 2 [104, 105] call answer).1
  have reach := opened.next (.fread ⟨4120, buffer⟩ 0 1 8 s 2 [104, 105]) wanted (processes_step read)
  obtain ⟨p₄, r, closed, gone, shut⟩ :=
    ((calls_name_open_descriptors exampleSite exampleStandard _ reach).2 _ member).2 0 true (.inr rfl)
  rw [made] at names
  exact ⟨p₂, _, p₄, _, s, r, _, opened, table, read, names, closed, gone,
    fun still => absurd (shut.mp still).1 (by decide)⟩

end AxiomeToolchain.Guarantees.FileLifecycle
