import AxiomeToolchain.Source.StdioCalls
import AxiomeToolchain.Guarantees.StreamHistory

/-!
# Objects in the heap implement the records of the stream level

`Source.Stdio` has a record for each stream and knows no memory, `Source.StdioFiles`
an object of 48 bytes that shares the heap with the client. In every run the
objects of the open streams are what the records say, and each call returns the
same on both levels.
-/

set_option autoImplicit false

namespace AxiomeToolchain.Guarantees.StreamRefinement
open AxiomeToolchain.Library.ByteMemory
open AxiomeToolchain.Library.CInt
open AxiomeToolchain.Library.Runs
open AxiomeToolchain.Library.Tiling
open AxiomeToolchain.Source
open AxiomeToolchain.Source.Heap (Site Allocation State null)
open AxiomeToolchain.Source.Syscall (Failed)
open AxiomeToolchain.Source.StdioFiles (Standard Trace fread_failed fread_done fwrite_failed fwrite_done)
open AxiomeToolchain.Source.StdioProcess
open AxiomeToolchain.Guarantees.StreamHistory
open AxiomeToolchain.Guarantees.FileLifecycle

/-- The stream of a `FILE *` on the level of records. -/
def streamOf (s : Nat) : Stdio.Stream := if s = null then .null else .opened s

/-- The object of every open stream has the fields of its record. -/
def Shows (t : Stdio.State) (p : Process) : Prop :=
  ∀ f ∈ p.files, t.files (.opened f.ptr) = ⟨f.fd, f.eof, f.err⟩

/-- A call of the process on the level of records, where `r` is what it returned.
A stream that fopen returned is a new record; of the other calls only fread,
fwrite and clearerr have to do with streams. -/
def recordCall (kernel : Stdio.Kernel) (p : Process) (t : Stdio.State) (r : Int) :
    Action → Option (Stdio.State × Int)
  | .fread a offset size nmemb stream _ _ =>
    let (t, n, _) := Stdio.fread kernel t (decide (a.ptr + offset ≠ null)) size nmemb (streamOf stream)
    some (t, n)
  | .fwrite ptr size nmemb stream _ =>
    (Stdio.fwrite kernel t
      (if ptr = null then none else some (bytesAt p.state.memory ptr (u64Mul size nmemb)))
      size nmemb (streamOf stream)).map (fun (t, n) => (t, (n : Int)))
  | .clearerr stream => some (Stdio.clearerr t (streamOf stream), 0)
  | .fopen _ _ opened _ _ =>
    some (if r = null then t
      else { t with files := Function.update t.files (.opened r.toNat) ⟨opened, 0, 0⟩ }, r)
  | .heap _ | .fclose _ _ _ => some (t, r)

/-- The kernel of the records answers a read or write as that of the process does. -/
def SameAnswer (kernel : Stdio.Kernel) (t : Stdio.State) : Action → Prop
  | .fread a offset size nmemb stream raw data => Asks (a.ptr + offset) size nmemb →
    kernel.read t.reads.length (t.files (.opened stream)).fd (u64Mul size nmemb) =
      if Failed raw then none else some data
  | .fwrite ptr size nmemb stream raw => Asks ptr size nmemb →
    kernel.write t.writes.length (t.files (.opened stream)).fd (u64Mul size nmemb) =
      if Failed raw then none else some raw.toNat
  | _ => True

variable {site : Site} {std : Standard site} {p p' : Process} {segs : List Segment} {f : OpenFile}
  {action : Action} {r : Int} {trace : Trace} {kernel : Stdio.Kernel} {t t' : Stdio.State}
  {steps : List (Step Process Action)}

/-! ## Marks on both levels -/

theorem shows_mark {s : Nat} {mark : OpenFile → OpenFile} {record : Stdio.File} (shows : Shows t p)
    (files : p'.files = markFile p.files s mark) (ptr : ∀ f, (mark f).ptr = f.ptr)
    (written : t'.files = Function.update t.files (.opened s) record)
    (same : ∀ f ∈ p.files, f.ptr = s → record = ⟨(mark f).fd, (mark f).eof, (mark f).err⟩) :
    Shows t' p' := by
  intro f' member
  rw [files] at member
  obtain ⟨f, inside, rfl⟩ := mem_markFile member
  rw [written]
  by_cases here : f.ptr = s
  · rw [if_pos here, ptr, here, Function.update_self]
    exact same f inside here
  · have other : Stdio.Stream.opened f.ptr ≠ .opened s := fun eq => here (Stdio.Stream.opened.inj eq)
    rw [if_neg here, Function.update_of_ne other]
    exact shows f inside

theorem shows_same (shows : Shows t p) (files : p'.files = p.files) (same : t'.files = t.files) :
    Shows t' p' := by
  intro f member
  rw [same]
  exact shows f (files ▸ member)

/-- A call that gives the record level nothing to do. -/
theorem idle_stream {ptr size nmemb stream : Nat} (idle : ¬ (stream ≠ null ∧ Asks ptr size nmemb)) :
    streamOf stream = .null ∨ decide (ptr ≠ null) = false ∨ size = 0 ∨ nmemb = 0 := by
  unfold streamOf
  by_cases isNull : stream = null
  · exact .inl (if_pos isNull)
  · unfold Asks at idle
    simp only [decide_eq_false_iff_not]
    tauto

/-- The records are asked what the objects are. -/
theorem asked_stream {ptr size nmemb stream : Nat} (some_stream : stream ≠ null)
    (asks : Asks ptr size nmemb) :
    streamOf stream = .opened stream ∧
      ¬ (streamOf stream = .null ∨ decide (ptr ≠ null) = false ∨ size = 0 ∨ nmemb = 0) ∧
      ¬ (stream = null ∨ ptr = null ∨ size = 0 ∨ nmemb = 0) := by
  have opened : streamOf stream = .opened stream := if_neg some_stream
  obtain ⟨place, width, count⟩ := asks
  refine ⟨opened, ?_, by tauto⟩
  simp [opened, place, width, count]

/-! ## fread -/

/-- The record after a read. -/
def afterRead (record : Stdio.File) : Option (List UInt8) → Stdio.File
  | none => { record with err := 1 }
  | some data => if data.length = 0 then { record with eof := 1 } else record

theorem record_fread {s : Stdio.Stream} {hasPtr : Bool} {size nmemb : Nat}
    {answer : Option (List UInt8)}
    (active : ¬ (s = .null ∨ hasPtr = false ∨ size = 0 ∨ nmemb = 0))
    (answered : kernel.read t.reads.length (t.files s).fd (u64Mul size nmemb) = answer) :
    ∃ t', Stdio.fread kernel t hasPtr size nmemb s =
        (t', (answer.getD []).length / size, answer.getD []) ∧
      t'.files = Function.update t.files s (afterRead (t.files s) answer) := by
  rw [Stdio.fread, if_neg active]
  simp only [Stdio.read, answered]
  cases answer with
  | none => exact ⟨_, by rw [Option.getD_none, List.length_nil, Nat.zero_div], rfl⟩
  | some data =>
    refine ⟨_, rfl, ?_⟩
    simp only [afterRead]
    split
    · rfl
    · exact (Function.update_eq_self s t.files).symm

theorem fread_refines (shows : Shows t p) {a : Allocation} {offset size nmemb stream : Nat} {raw : Int}
    {data : List UInt8} (ok : (Action.fread a offset size nmemb stream raw data).allowed std p)
    (answer : SameAnswer kernel t (.fread a offset size nmemb stream raw data))
    (run : step std p (.fread a offset size nmemb stream raw data) = some (p', r, trace)) :
    ∃ t', recordCall kernel p t r (.fread a offset size nmemb stream raw data) = some (t', r) ∧
      Shows t' p' := by
  by_cases asks : stream ≠ null ∧ Asks (a.ptr + offset) size nmemb
  · obtain ⟨opened, active, asked⟩ := asked_stream asks.1 asks.2
    have answered := answer asks.2
    rw [← opened] at answered
    obtain ⟨t', same, files⟩ := record_fread active answered
    rw [opened] at files
    obtain ⟨-, -, -, result⟩ := ok
    rcases result with ⟨failed, rfl⟩ | ⟨rfl, -⟩
    · have called : StdioFiles.fread p.state (a.ptr + offset) size nmemb stream raw [] = _ :=
        fread_failed asked failed
      simp only [step, called, List.cons_ne_nil, if_false, if_pos failed] at run
      rw [if_pos failed] at same files
      cases run
      have call : recordCall kernel p t 0 (.fread a offset size nmemb stream raw []) = some (t', 0) := by
        simp only [recordCall, same]
        simp
      refine ⟨t', call, shows_mark shows rfl (fun f => rfl) files ?_⟩
      rintro f inside rfl
      rw [shows f inside]
      rfl
    · have low : (0 : Int) ≤ data.length := Int.natCast_nonneg _
      have success : ¬ Failed (data.length : Int) := fun failed => by have := failed.2; omega
      have called : StdioFiles.fread p.state (a.ptr + offset) size nmemb stream data.length data = _ :=
        fread_done asked low
      simp only [step, called, List.cons_ne_nil, if_false, if_neg success] at run
      rw [if_neg success] at same files
      cases run
      refine ⟨t', by simp only [recordCall, same]; rfl, shows_mark shows rfl (fun f => ?_) files ?_⟩
      · split <;> rfl
      · rintro f inside rfl
        rw [shows f inside, afterRead]
        by_cases empty : data.length = 0
        · simp [empty]
        · have nonzero : (data.length : Int) ≠ 0 := by omega
          rw [if_neg empty, if_neg nonzero]
  · have idle := idle_stream asks
    have nothing : StdioFiles.fread p.state (a.ptr + offset) size nmemb stream raw data =
        (p.state, 0, []) := by
      rw [StdioFiles.fread, if_pos]
      unfold Asks at asks
      tauto
    rw [step, nothing] at run
    cases run
    refine ⟨t, ?_, shows_same shows rfl rfl⟩
    rw [recordCall, Stdio.fread, if_pos idle]

/-! ## fwrite -/

def afterWrite (record : Stdio.File) : Option Nat → Stdio.File
  | none => { record with err := 1 }
  | some _ => record

theorem record_fwrite {s : Stdio.Stream} {object : List UInt8} {size nmemb : Nat} {answer : Option Nat}
    (active : ¬ (s = .null ∨ size = 0 ∨ nmemb = 0)) (whole : object.length = u64Mul size nmemb)
    (answered : kernel.write t.writes.length (t.files s).fd (u64Mul size nmemb) = answer) :
    ∃ t', Stdio.fwrite kernel t (some object) size nmemb s = some (t', answer.getD 0 / size) ∧
      t'.files = Function.update t.files s (afterWrite (t.files s) answer) := by
  have cut : object.take (u64Mul size nmemb) = object := List.take_of_length_le (by omega)
  rw [Stdio.fwrite]
  simp only [if_neg active, whole, Nat.le_refl, if_true, cut, Stdio.write, answered]
  cases answer with
  | none => exact ⟨_, by rw [Option.getD_none, Nat.zero_div], rfl⟩
  | some n => exact ⟨_, rfl, (Function.update_eq_self s t.files).symm⟩

theorem fwrite_refines (shows : Shows t p) {ptr size nmemb stream : Nat} {raw : Int}
    (ok : (Action.fwrite ptr size nmemb stream raw).allowed std p)
    (answer : SameAnswer kernel t (.fwrite ptr size nmemb stream raw))
    (run : step std p (.fwrite ptr size nmemb stream raw) = some (p', r, trace)) :
    ∃ t', recordCall kernel p t r (.fwrite ptr size nmemb stream raw) = some (t', r) ∧
      Shows t' p' := by
  by_cases asks : stream ≠ null ∧ Asks ptr size nmemb
  · obtain ⟨opened, active, asked⟩ := asked_stream asks.1 asks.2
    have answered := answer asks.2
    rw [← opened] at answered
    have awake : ¬ (streamOf stream = .null ∨ size = 0 ∨ nmemb = 0) := by tauto
    obtain ⟨t', same, files⟩ := record_fwrite awake
      (bytesAt_length p.state.memory ptr (u64Mul size nmemb)) answered
    rw [opened] at files
    obtain ⟨-, -, result⟩ := ok
    rcases result with failed | ⟨low, -⟩
    · have called : StdioFiles.fwrite p.state ptr size nmemb stream raw = _ :=
        fwrite_failed asked failed
      simp only [step, called, List.cons_ne_nil, if_false, if_pos failed] at run
      rw [if_pos failed] at same files
      cases run
      refine ⟨t', by simp [recordCall, asks.2.1, same], shows_mark shows rfl (fun f => rfl) files ?_⟩
      rintro f inside rfl
      rw [shows f inside]
      rfl
    · have success : ¬ Failed raw := fun failed => by have := failed.2; omega
      have called : StdioFiles.fwrite p.state ptr size nmemb stream raw = _ := fwrite_done asked low
      simp only [step, called, List.cons_ne_nil, if_false, if_neg success] at run
      rw [if_neg success] at same files
      cases run
      refine ⟨t', by simp [recordCall, asks.2.1, same], shows_mark shows rfl (fun f => rfl) files ?_⟩
      rintro f inside rfl
      rw [shows f inside]
      rfl
  · have nothing : StdioFiles.fwrite p.state ptr size nmemb stream raw = (p.state, 0, []) := by
      rw [StdioFiles.fwrite, if_pos]
      unfold Asks at asks
      tauto
    rw [step, nothing] at run
    cases run
    refine ⟨t, ?_, shows_same shows rfl rfl⟩
    have idle := idle_stream asks
    by_cases isNull : ptr = null
    · simp [recordCall, isNull, Stdio.fwrite]
    · have asleep : streamOf stream = .null ∨ size = 0 ∨ nmemb = 0 := by
        simpa [isNull] using idle
      simp [recordCall, isNull, Stdio.fwrite, asleep]

/-! ## The other calls -/

theorem clearerr_refines (held : Held site p segs) (shows : Shows t p) {stream : Nat}
    (run : step std p (.clearerr stream) = some (p', r, trace)) :
    ∃ t', recordCall kernel p t r (.clearerr stream) = some (t', r) ∧ Shows t' p' := by
  cases run
  refine ⟨_, rfl, ?_⟩
  by_cases isNull : stream = null
  · have absent : stream ∉ p.files.map OpenFile.ptr := by
      intro member
      obtain ⟨f, inside, same⟩ := List.mem_map.mp member
      exact held.stream_ne_null inside (same.trans isNull)
    refine shows_same shows (markFile_absent absent _) ?_
    rw [streamOf, if_pos isNull, Stdio.clearerr, if_pos rfl]
  · refine shows_mark (s := stream) shows rfl (fun f => rfl) (by rw [streamOf, if_neg isNull]; rfl) ?_
    rintro f inside rfl
    rw [shows f inside]

/-- A stream that fopen returned is none of those that are open. -/
theorem fopen_refines (after : Held site p' segs) (shows : Shows t p) {path : Syscall.Long}
    {mode : Option (List UInt8)} {opened closed : Int} {kept : Bool}
    (run : step std p (.fopen path mode opened closed kept) = some (p', r, trace)) :
    ∃ t', recordCall kernel p t r (.fopen path mode opened closed kept) = some (t', r) ∧
      Shows t' p' := by
  rw [step, Option.map_eq_some_iff] at run
  obtain ⟨⟨st, q, made⟩, -, same⟩ := run
  cases same
  refine ⟨_, rfl, ?_⟩
  by_cases isNull : q = null
  · exact shows_same shows (if_pos isNull) (by simp [isNull])
  · have nodup := after.pointers
    simp only [if_neg isNull, List.map_cons] at nodup
    have fresh : q ∉ p.files.map OpenFile.ptr := by
      intro member
      exact (List.nodup_cons.mp nodup).1 (List.mem_append_left _ member)
    intro f member
    simp only [if_neg isNull] at member
    have nonzero : ¬ ((q : Int) = (null : Nat)) := by omega
    simp only [if_neg nonzero, Int.toNat_natCast]
    rcases List.mem_cons.mp member with rfl | earlier
    · exact Function.update_self ..
    · have other : Stdio.Stream.opened f.ptr ≠ .opened q := by
        intro same
        rw [← Stdio.Stream.opened.inj same] at fresh
        exact fresh (List.mem_map_of_mem earlier)
      rw [Function.update_of_ne other]
      exact shows f earlier

theorem call_refines (held : Held site p segs) (shows : Shows t p) (ok : action.allowed std p)
    (answer : SameAnswer kernel t action) (run : step std p action = some (p', r, trace)) :
    ∃ t', recordCall kernel p t r action = some (t', r) ∧ Shows t' p' := by
  cases action with
  | heap op =>
    rw [step, Option.map_eq_some_iff] at run
    obtain ⟨⟨st, q⟩, -, same⟩ := run
    cases same
    exact ⟨t, rfl, shows_same shows rfl rfl⟩
  | fopen path mode opened closed kept =>
    obtain ⟨own, r', trace', segs', ran, after, -⟩ := held.step ok
    rw [run] at ran
    cases ran
    exact fopen_refines after shows run
  | fclose stream closed kept =>
    refine ⟨t, rfl, fun f member => ?_⟩
    rw [step, Option.map_eq_some_iff] at run
    obtain ⟨⟨st, q, made⟩, -, same⟩ := run
    cases same
    dsimp only at member
    split at member
    · exact shows f member
    · exact shows f (List.mem_filter.mp member).1
  | fread a offset size nmemb stream raw data => exact fread_refines shows ok answer run
  | fwrite ptr size nmemb stream raw => exact fwrite_refines shows ok answer run
  | clearerr stream => exact clearerr_refines held shows run

/-! ## Runs -/

/-- The records of a run: each call is made on both levels, with the same answer. -/
inductive Mirrors {site : Site} (std : Standard site) (kernel : Stdio.Kernel) (t₀ : Stdio.State) :
    List (Step Process Action) → Stdio.State → Prop
  | nil : Mirrors std kernel t₀ [] t₀
  | snoc {steps : List (Step Process Action)} {t t' : Stdio.State} {p p' : Process} {action : Action}
      {r r' : Int} {trace : Trace} (before : Mirrors std kernel t₀ steps t)
      (answer : SameAnswer kernel t action) (run : step std p action = some (p', r, trace))
      (record : recordCall kernel p t r action = some (t', r')) :
      Mirrors std kernel t₀ (steps ++ [⟨p, action, p'⟩]) t'

theorem mirrors_shows {p₀ : Process} {t₀ : Stdio.State} (start : p₀.initial)
    (run : Run (processes std) p₀ steps p) (mirrors : Mirrors std kernel t₀ steps t) : Shows t p := by
  induction run generalizing t with
  | nil =>
    intro f member
    rw [start.2.2.1] at member
    cases member
  | @snoc q u action steps run ok ret ih =>
    obtain ⟨segs, held⟩ := reachable_held (run.reachable start)
    generalize whole : steps ++ [Step.mk q action u] = all at mirrors
    cases mirrors with
    | nil => simp at whole
    | snoc before answer ran record =>
      obtain ⟨rfl, last⟩ := List.append_inj' whole rfl
      cases last
      obtain ⟨t', recorded, shows⟩ := call_refines held (ih before) ok answer ran
      rw [record] at recorded
      cases recorded
      exact shows

/-- Over every run of the process, with the records that the same calls and
answers make: every open stream's object in memory has the fields of its record,
feof and ferror agree, and whatever call comes next returns the same on both
levels and leaves objects and records alike. -/
theorem records_refined (site : Site) (std : Standard site) (kernel : Stdio.Kernel) (p₀ p : Process)
    (t₀ t : Stdio.State) (steps : List (Step Process Action)) (start : p₀.initial)
    (run : Run (processes std) p₀ steps p) (mirrors : Mirrors std kernel t₀ steps t) :
    (∀ s ∈ p.files.map OpenFile.ptr,
      t.files (streamOf s) = ⟨StdioFiles.readFd p.state.memory s, StdioFiles.feof p.state.memory s,
        StdioFiles.ferror p.state.memory s⟩ ∧
      Stdio.feof t (streamOf s) = StdioFiles.feof p.state.memory s ∧
      Stdio.ferror t (streamOf s) = StdioFiles.ferror p.state.memory s) ∧
    ∀ action : Action, action.allowed std p → SameAnswer kernel t action → ∃ p' r trace t',
      step std p action = some (p', r, trace) ∧ recordCall kernel p t r action = some (t', r) ∧
        Shows t' p' := by
  obtain ⟨segs, held⟩ := reachable_held (run.reachable start)
  have shows := mirrors_shows start run mirrors
  refine ⟨fun s member => ?_, fun action ok answer => ?_⟩
  · obtain ⟨f, inside, rfl⟩ := List.mem_map.mp member
    have nonnull := held.stream_ne_null inside
    have opened : streamOf f.ptr = .opened f.ptr := if_neg nonnull
    have reads := held.reads inside
    have record := shows f inside
    have eof : StdioFiles.feof p.state.memory f.ptr = f.eof := by
      rw [StdioFiles.feof, if_pos nonnull, reads.eof]
    have err : StdioFiles.ferror p.state.memory f.ptr = f.err := by
      rw [StdioFiles.ferror, if_pos nonnull, reads.err]
    rw [opened, reads.fd, eof, err]
    refine ⟨record, ?_, ?_⟩
    · rw [Stdio.feof, if_neg (by simp), record]
    · rw [Stdio.ferror, if_neg (by simp), record]
  · obtain ⟨p', r, trace, segs', ran, -⟩ := held.step ok
    obtain ⟨t', recorded, after⟩ := call_refines held shows ok answer ran
    exact ⟨p', r, trace, t', ran, recorded, after⟩

/-- A stream on descriptor 3 after an fread that met the end: both levels show the
mark, and after clearerr neither does. -/
theorem records_refined_read : ∃ (steps : List (Step Process Action)) (p₃ p₄ : Process)
    (t₃ t₄ : Stdio.State) (s : Nat),
    Run (processes exampleStandard) exampleProcess steps p₃ ∧ steps.length = 3 ∧
      Mirrors exampleStandard Stdio.willingKernel Stdio.exampleStreams steps t₃ ∧
      t₃.files (streamOf s) = ⟨3, 1, 0⟩ ∧ StdioFiles.readFd p₃.state.memory s = 3 ∧
      StdioFiles.feof p₃.state.memory s = 1 ∧
      step exampleStandard p₃ (.clearerr s) = some (p₄, 0, []) ∧
      recordCall Stdio.willingKernel p₃ t₃ 0 (.clearerr s) = some (t₄, 0) ∧
      t₄.files (.opened s) = ⟨3, 0, 0⟩ := by
  have start := exampleProcess_initial
  obtain ⟨p₁, p₂, p₃, p₄, buffer, s, trace, first, second, read, clear, nonnull, marked, unmarked,
    run₃, -⟩ := example_read
  have asked (t : Stdio.State) : SameAnswer Stdio.willingKernel t (.heap (.malloc 16)) := trivial
  have opens (t : Stdio.State) : SameAnswer Stdio.willingKernel t exampleOpen := trivial
  have ends (t : Stdio.State) :
      SameAnswer Stdio.willingKernel t (.fread ⟨4120, buffer⟩ 0 1 8 s 0 []) := fun _ => rfl
  obtain ⟨t₃, mirrors⟩ : ∃ t₃, Mirrors exampleStandard Stdio.willingKernel Stdio.exampleStreams
      [⟨exampleProcess, .heap (.malloc 16), p₁⟩, ⟨p₁, exampleOpen, p₂⟩,
        ⟨p₂, .fread ⟨4120, buffer⟩ 0 1 8 s 0 [], p₃⟩] t₃ :=
    ⟨_, .snoc (.snoc (.snoc .nil (asked _) first rfl) (opens _) second rfl) (ends _) read rfl⟩
  obtain ⟨alike, next⟩ := records_refined Heap.exampleSite exampleStandard Stdio.willingKernel
    exampleProcess p₃ Stdio.exampleStreams t₃ _ start run₃ mirrors
  obtain ⟨segs, held⟩ := reachable_held (run₃.reachable start)
  have member : (⟨s, 3, 1, 1, 0⟩ : OpenFile) ∈ p₃.files := by simp [marked]
  have reads := held.reads member
  have eof : StdioFiles.feof p₃.state.memory s = 1 := (if_pos nonnull).trans reads.eof
  have err : StdioFiles.ferror p₃.state.memory s = 0 := (if_pos nonnull).trans reads.err
  have record := (alike s (List.mem_map_of_mem member)).1
  rw [show StdioFiles.readFd p₃.state.memory s = 3 from reads.fd, eof, err] at record
  obtain ⟨p', r, trace', t₄, ran, recorded, shows⟩ :=
    next (.clearerr s) (.inr (List.mem_map_of_mem member)) trivial
  cases ran.symm.trans clear
  exact ⟨_, p₃, p₄, t₃, t₄, s, run₃, rfl, mirrors, record, reads.fd, eof, clear, recorded,
    shows ⟨s, 3, 1, 0, 0⟩ (by simp [unmarked])⟩

end AxiomeToolchain.Guarantees.StreamRefinement
