import AxiomeToolchain.Library.Runs
import AxiomeToolchain.Guarantees.FileLifecycle

/-!
# The marks of a stream tell its history

feof and ferror read two words of an object in the heap, between allocations of
the client and other streams. Over every run they say what has happened on the
stream itself since the fopen that returned it and the last clearerr of it.
-/

set_option autoImplicit false

namespace AxiomeToolchain.Guarantees.StreamHistory
open AxiomeToolchain.Library.CInt
open AxiomeToolchain.Library.Runs
open AxiomeToolchain.Library.Tiling
open AxiomeToolchain.Source.Heap
open AxiomeToolchain.Source.Syscall (Long Failed)
open AxiomeToolchain.Source.StdioFiles
open AxiomeToolchain.Source.StdioProcess
open AxiomeToolchain.Guarantees.FileLifecycle

/-- fread and fwrite make their system call. -/
def Asks (ptr size nmemb : Nat) : Prop := ptr ≠ null ∧ size ≠ 0 ∧ nmemb ≠ 0

/-- An fread of the stream that asks for something and is told the end of the file. -/
def MeetsEnd (s : Nat) : Action → Prop
  | .fread a offset size nmemb stream raw _ =>
    stream = s ∧ Asks (a.ptr + offset) size nmemb ∧ raw = 0
  | _ => False

/-- An fread or fwrite of the stream that the kernel refuses. -/
def MeetsError (s : Nat) : Action → Prop
  | .fread a offset size nmemb stream raw _ =>
    stream = s ∧ Asks (a.ptr + offset) size nmemb ∧ Failed raw
  | .fwrite ptr size nmemb stream raw => stream = s ∧ Asks ptr size nmemb ∧ Failed raw
  | _ => False

def Clears (s : Nat) : Action → Prop
  | .clearerr stream => stream = s
  | _ => False

def Closes (s : Nat) : Action → Prop
  | .fclose stream _ _ => stream = s
  | _ => False

/-- The history of an open stream: the fopen that returned it, no fclose of it
since, and the marks that the calls since then have left. -/
structure History {site : Site} (std : Standard site) (steps : List (Step Process Action))
    (f : OpenFile) : Prop where
  opened : ∃ before q q' path mode closed kept trace after,
    steps = before ++ ⟨q, .fopen path mode f.fd closed kept, q'⟩ :: after ∧
      step std q (.fopen path mode f.fd closed kept) = some (q', (f.ptr : Int), trace) ∧
      f.flags = openedFlags mode ∧
      (∀ later ∈ after, ¬ Closes f.ptr later.call) ∧
      (f.eof = 1 ↔ Since (MeetsEnd f.ptr) (Clears f.ptr) (after.map Step.call)) ∧
      (f.err = 1 ↔ Since (MeetsError f.ptr) (Clears f.ptr) (after.map Step.call))

/-- The stream before and after a call that keeps it open. -/
structure Follows (action : Action) (f f' : OpenFile) : Prop where
  ptr : f'.ptr = f.ptr
  fd : f'.fd = f.fd
  flags : f'.flags = f.flags
  still : ¬ Closes f.ptr action
  eof : f'.eof = 1 ↔ MeetsEnd f.ptr action ∨ f.eof = 1 ∧ ¬ Clears f.ptr action
  err : f'.err = 1 ↔ MeetsError f.ptr action ∨ f.err = 1 ∧ ¬ Clears f.ptr action

variable {site : Site} {std : Standard site} {p p' : Process} {segs : List Segment} {f f' : OpenFile}
  {action : Action} {r : Int} {trace : Trace} {steps : List (Step Process Action)}

/-! ## One call -/

/-- A call that does nothing to the stream. -/
theorem follows_same (still : ¬ Closes f.ptr action) (clear : ¬ Clears f.ptr action)
    (noEnd : ¬ MeetsEnd f.ptr action) (noError : ¬ MeetsError f.ptr action) :
    Follows action f f where
  ptr := rfl
  fd := rfl
  flags := rfl
  still := still
  eof := by simp [clear, noEnd]
  err := by simp [clear, noError]

theorem mem_markFile {files : List OpenFile} {s : Nat} {mark : OpenFile → OpenFile}
    (member : f' ∈ markFile files s mark) :
    ∃ f ∈ files, f' = if f.ptr = s then mark f else f := by
  obtain ⟨f, inside, same⟩ := List.mem_map.mp member
  exact ⟨f, inside, same.symm⟩

/-- fread and fwrite make their system call unless they have nothing to do. -/
theorem fread_trace (st : State) (ptr size nmemb stream : Nat) (raw : Int) (data : List UInt8) :
    (fread st ptr size nmemb stream raw data).2.2 = [] ↔ ¬ (stream ≠ null ∧ Asks ptr size nmemb) := by
  have idle : ¬ (stream ≠ null ∧ Asks ptr size nmemb) ↔
      stream = null ∨ ptr = null ∨ size = 0 ∨ nmemb = 0 := by
    unfold Asks
    tauto
  rw [idle, fread]
  split
  · next idle => exact iff_of_true rfl idle
  · next asked =>
    simp only [apply_ite Prod.snd, ite_self]
    exact iff_of_false (List.cons_ne_nil _ _) asked

theorem fwrite_trace (st : State) (ptr size nmemb stream : Nat) (raw : Int) :
    (fwrite st ptr size nmemb stream raw).2.2 = [] ↔ ¬ (stream ≠ null ∧ Asks ptr size nmemb) := by
  have idle : ¬ (stream ≠ null ∧ Asks ptr size nmemb) ↔
      stream = null ∨ ptr = null ∨ size = 0 ∨ nmemb = 0 := by
    unfold Asks
    tauto
  rw [idle, fwrite]
  split
  · next idle => exact iff_of_true rfl idle
  · next asked =>
    simp only [apply_ite Prod.snd, ite_self]
    exact iff_of_false (List.cons_ne_nil _ _) asked

theorem fread_follows (held : Held site p segs) {a : Allocation} {offset size nmemb stream : Nat}
    {raw : Int} {data : List UInt8}
    (run : step std p (.fread a offset size nmemb stream raw data) = some (p', r, trace))
    (member : f' ∈ p'.files) :
    ∃ f ∈ p.files, Follows (.fread a offset size nmemb stream raw data) f f' := by
  obtain ⟨⟨st, n, made⟩, ran⟩ :
    ∃ t, fread p.state (a.ptr + offset) size nmemb stream raw data = t := ⟨_, rfl⟩
  have idle := fread_trace p.state (a.ptr + offset) size nmemb stream raw data
  rw [ran] at idle
  simp only [step, ran] at run
  split at run
  · next silent =>
    cases run
    have nothing := idle.mp silent
    have nonnull : f'.ptr ≠ null := held.stream_ne_null member
    refine ⟨f', member, follows_same id id (fun meets => ?_) (fun meets => ?_)⟩
    · exact nothing ⟨meets.1 ▸ nonnull, meets.2.1⟩
    · exact nothing ⟨meets.1 ▸ nonnull, meets.2.1⟩
  · next called =>
    cases run
    obtain ⟨-, asked⟩ := not_not.mp (fun nothing => called (idle.mpr nothing))
    obtain ⟨f, inside, rfl⟩ := mem_markFile member
    refine ⟨f, inside, ?_⟩
    by_cases same : f.ptr = stream
    · rw [if_pos same]
      by_cases failed : Failed raw
      · have notZero : raw ≠ 0 := fun zero => by have := failed.2; omega
        rw [if_pos failed]
        refine ⟨rfl, rfl, rfl, id, ?_, iff_of_true rfl (.inl ⟨same.symm, asked, failed⟩)⟩
        simp [MeetsEnd, Clears, notZero]
      · rw [if_neg failed]
        by_cases zero : raw = 0
        · rw [if_pos zero]
          refine ⟨rfl, rfl, rfl, id, iff_of_true rfl (.inl ⟨same.symm, asked, zero⟩), ?_⟩
          simp [MeetsError, Clears, failed]
        · rw [if_neg zero]
          exact follows_same id id (fun meets => zero meets.2.2) (fun meets => failed meets.2.2)
    · rw [if_neg same]
      exact follows_same id id (fun meets => same meets.1.symm) (fun meets => same meets.1.symm)

theorem fwrite_follows (held : Held site p segs) {ptr size nmemb stream : Nat} {raw : Int}
    (run : step std p (.fwrite ptr size nmemb stream raw) = some (p', r, trace))
    (member : f' ∈ p'.files) :
    ∃ f ∈ p.files, Follows (.fwrite ptr size nmemb stream raw) f f' := by
  obtain ⟨⟨st, n, made⟩, ran⟩ : ∃ t, fwrite p.state ptr size nmemb stream raw = t := ⟨_, rfl⟩
  have idle := fwrite_trace p.state ptr size nmemb stream raw
  rw [ran] at idle
  simp only [step, ran] at run
  split at run
  · next silent =>
    cases run
    have nonnull : f'.ptr ≠ null := held.stream_ne_null member
    refine ⟨f', member, follows_same id id id (fun meets => ?_)⟩
    exact idle.mp silent ⟨meets.1 ▸ nonnull, meets.2.1⟩
  · next called =>
    cases run
    obtain ⟨-, asked⟩ := not_not.mp (fun nothing => called (idle.mpr nothing))
    obtain ⟨f, inside, rfl⟩ := mem_markFile member
    refine ⟨f, inside, ?_⟩
    by_cases same : f.ptr = stream
    · rw [if_pos same]
      by_cases failed : Failed raw
      · rw [if_pos failed]
        refine ⟨rfl, rfl, rfl, id, ?_, iff_of_true rfl (.inl ⟨same.symm, asked, failed⟩)⟩
        simp [MeetsEnd, Clears]
      · rw [if_neg failed]
        exact follows_same id id id (fun meets => failed meets.2.2)
    · rw [if_neg same]
      exact follows_same id id id (fun meets => same meets.1.symm)

theorem clearerr_follows {stream : Nat}
    (run : step std p (.clearerr stream) = some (p', r, trace)) (member : f' ∈ p'.files) :
    ∃ f ∈ p.files, Follows (.clearerr stream) f f' := by
  cases run
  obtain ⟨f, inside, rfl⟩ := mem_markFile member
  refine ⟨f, inside, ?_⟩
  by_cases same : f.ptr = stream
  · have clears : Clears f.ptr (.clearerr stream) := same.symm
    rw [if_pos same]
    exact ⟨rfl, rfl, rfl, id, by simp [MeetsEnd, clears], by simp [MeetsError, clears]⟩
  · rw [if_neg same]
    exact follows_same id (fun other => same other.symm) id id

/-- The streams left after an fclose are the others. -/
theorem fclose_follows (held : Held site p segs) {stream : Nat} {closed : Int} {kept : Bool}
    (run : step std p (.fclose stream closed kept) = some (p', r, trace)) (member : f' ∈ p'.files) :
    ∃ f ∈ p.files, Follows (.fclose stream closed kept) f f' := by
  rw [step, Option.map_eq_some_iff] at run
  obtain ⟨⟨st, q, made⟩, ran, same⟩ := run
  cases same
  dsimp only at member
  split at member
  · next silent =>
    refine ⟨f', member, follows_same ?_ id id id⟩
    rintro rfl
    rw [fclose_opened (held.stream_ne_null member) (held.stream_not_standard std member)
      (held.reads member).buf, Option.map_eq_some_iff] at ran
    obtain ⟨st', -, same⟩ := ran
    cases same
    cases silent
  · obtain ⟨inside, other⟩ := List.mem_filter.mp member
    refine ⟨f', inside, follows_same ?_ id id id⟩
    rintro rfl
    simp at other

/-- A stream in the files after a call is the one the call opened, or was open before. -/
theorem step_follows (held : Held site p segs) (run : step std p action = some (p', r, trace))
    (member : f' ∈ p'.files) :
    (∃ path mode closed kept, action = .fopen path mode f'.fd closed kept ∧ r = f'.ptr ∧
      f'.flags = openedFlags mode ∧ f'.eof = 0 ∧ f'.err = 0) ∨
      ∃ f ∈ p.files, Follows action f f' := by
  cases action with
  | heap op =>
    rw [step, Option.map_eq_some_iff] at run
    obtain ⟨⟨st, q⟩, -, same⟩ := run
    cases same
    exact .inr ⟨f', member, follows_same id id id id⟩
  | fopen path mode opened closed kept =>
    rw [step, Option.map_eq_some_iff] at run
    obtain ⟨⟨st, q, made⟩, -, same⟩ := run
    cases same
    dsimp only at member
    split at member
    · exact .inr ⟨f', member, follows_same id id id id⟩
    · rcases List.mem_cons.mp member with rfl | earlier
      · exact .inl ⟨path, mode, closed, kept, rfl, rfl, rfl, rfl, rfl⟩
      · exact .inr ⟨f', earlier, follows_same id id id id⟩
  | fclose stream closed kept => exact .inr (fclose_follows held run member)
  | fread a offset size nmemb stream raw data => exact .inr (fread_follows held run member)
  | fwrite ptr size nmemb stream raw => exact .inr (fwrite_follows held run member)
  | clearerr stream => exact .inr (clearerr_follows run member)

/-! ## A run -/

/-- A mark that the last call may have set or cleared. -/
theorem since_after {before after : Int} {sets clears : Action → Prop}
    {later : List (Step Process Action)}
    {t u : Process} (last : after = 1 ↔ sets action ∨ before = 1 ∧ ¬ clears action)
    (earlier : before = 1 ↔ Since sets clears (later.map Step.call)) :
    after = 1 ↔ Since sets clears ((later ++ [Step.mk t action u]).map Step.call) := by
  rw [List.map_append, List.map_cons, List.map_nil, since_snoc, ← earlier, last]

theorem History.extend (history : History std steps f) {t u : Process}
    (follows : Follows action f f') : History std (steps ++ [⟨t, action, u⟩]) f' := by
  obtain ⟨ptr, fd, flags, still, eof, err⟩ := follows
  obtain ⟨before, q, q', path, mode, closed, kept, trace, after, same, run, chosen, open_, ends,
    errs⟩ := history.opened
  refine ⟨⟨before, q, q', path, mode, closed, kept, trace, after ++ [⟨t, action, u⟩], ?_, ?_,
    flags.trans chosen, ?_, ?_, ?_⟩⟩
  · rw [same, fd, List.append_assoc, List.cons_append]
  · rw [fd, ptr, run]
  · rw [ptr]
    intro later member
    rcases List.mem_append.mp member with inside | last
    · exact open_ later inside
    · rw [List.mem_singleton.mp last]
      exact still
  · rw [ptr]
    exact since_after eof ends
  · rw [ptr]
    exact since_after err errs

theorem run_history {p₀ : Process} (start : p₀.initial) (run : Run (processes std) p₀ steps p) :
    ∀ f ∈ p.files, History std steps f := by
  induction run with
  | nil =>
    intro f member
    rw [start.2.2.1] at member
    cases member
  | @snoc t u action steps run ok ret ih =>
    intro f' member
    obtain ⟨segs, held⟩ := reachable_held (run.reachable start)
    obtain ⟨⟨u', r, trace⟩, ran, same⟩ := Option.map_eq_some_iff.mp ret
    obtain rfl : u' = u := same
    rcases step_follows held ran member with ⟨path, mode, closed, kept, rfl, rfl, flags, eof, err⟩ |
      ⟨f, inside, follows⟩
    · refine ⟨⟨steps, t, u', path, mode, closed, kept, trace, [], rfl, ran, flags, by simp, ?_, ?_⟩⟩
      · simp [eof, not_since_nil]
      · simp [err, not_since_nil]
    · exact (ih f inside).extend follows

/-- For every stream that is open at the end of a run from the start of the
process: the run holds the fopen that returned it, with the mode and the kernel's
descriptor that its object still shows, and no fclose of it since; feof is
nonzero exactly if since then, and since its last clearerr, an fread of it was
told the end of the file, and ferror exactly if the kernel refused an fread or
fwrite of it. -/
theorem stream_history (site : Site) (std : Standard site) (p₀ p : Process)
    (steps : List (Step Process Action)) (start : p₀.initial)
    (run : Run (processes std) p₀ steps p) :
    ∀ s ∈ p.files.map OpenFile.ptr, ∃ before q q' path mode opened closed kept trace after,
      steps = before ++ ⟨q, .fopen path mode opened closed kept, q'⟩ :: after ∧
      step std q (.fopen path mode opened closed kept) = some (q', (s : Int), trace) ∧
      readFd p.state.memory s = opened ∧ readFlags p.state.memory s = openedFlags mode ∧
      (∀ later ∈ after, ¬ Closes s later.call) ∧
      (feof p.state.memory s ≠ 0 ↔ Since (MeetsEnd s) (Clears s) (after.map Step.call)) ∧
      (ferror p.state.memory s ≠ 0 ↔ Since (MeetsError s) (Clears s) (after.map Step.call)) := by
  intro s member
  obtain ⟨f, inside, rfl⟩ := List.mem_map.mp member
  obtain ⟨segs, held⟩ := reachable_held (run.reachable start)
  obtain ⟨before, q, q', path, mode, closed, kept, trace, after, same, ran, flags, open_, ends, errs⟩ :=
    (run_history start run f inside).opened
  have reads := held.reads inside
  have ranges := held.ranges f inside
  have nonnull : f.ptr ≠ null := held.stream_ne_null inside
  refine ⟨before, q, q', path, mode, f.fd, closed, kept, trace, after, same, ran, reads.fd,
    reads.flags.trans flags, open_, ?_, ?_⟩
  · rw [feof, if_pos nonnull, reads.eof, ← ends]
    have bit := ranges.eof
    omega
  · rw [ferror, if_pos nonnull, reads.err, ← errs]
    have bit := ranges.err
    omega

/-- In a run with one fopen the calls since then are those behind it. -/
theorem since_opened {first : Step Process Action} {p₁ p₂ q q' : Process}
    {rest before after : List (Step Process Action)} {path : Long} {mode : Option (List UInt8)}
    {opened closed : Int} {kept : Bool}
    (same : first :: ⟨p₁, exampleOpen, p₂⟩ :: rest =
      before ++ ⟨q, .fopen path mode opened closed kept, q'⟩ :: after)
    (once : ∀ step ∈ first :: rest, step.call ≠ .fopen path mode opened closed kept) :
    opened = 3 ∧ after = rest := by
  cases before with
  | nil =>
    obtain ⟨head, -⟩ := List.cons.inj same
    exact absurd (congrArg Step.call head) (once first List.mem_cons_self)
  | cons b before =>
    obtain ⟨-, same⟩ := List.cons.inj same
    cases before with
    | nil =>
      obtain ⟨head, tail⟩ := List.cons.inj same
      exact ⟨(Action.fopen.inj (congrArg Step.call head)).2.2.1.symm, tail.symm⟩
    | cons c before =>
      obtain ⟨-, same⟩ := List.cons.inj same
      have member : (⟨q, .fopen path mode opened closed kept, q'⟩ : Step Process Action) ∈ rest := by
        simp [same]
      exact absurd rfl (once _ (List.mem_cons_of_mem _ member))

/-- A buffer, a stream, an fread that meets the end, and clearerr. -/
theorem example_read : ∃ (p₁ p₂ p₃ p₄ : Process) (buffer : List UInt8) (s : Nat) (trace : Trace),
    step exampleStandard exampleProcess (.heap (.malloc 16)) = some (p₁, 4120, []) ∧
      step exampleStandard p₁ exampleOpen = some (p₂, (s : Int), [(openOf 8192 ⟨1, 0⟩, 3)]) ∧
      step exampleStandard p₂ (.fread ⟨4120, buffer⟩ 0 1 8 s 0 []) = some (p₃, 0, trace) ∧
      step exampleStandard p₃ (.clearerr s) = some (p₄, 0, []) ∧
      s ≠ null ∧ p₃.files = [⟨s, 3, 1, 1, 0⟩] ∧ p₄.files = [⟨s, 3, 1, 0, 0⟩] ∧
      Run (processes exampleStandard) exampleProcess
        [⟨exampleProcess, .heap (.malloc 16), p₁⟩, ⟨p₁, exampleOpen, p₂⟩,
          ⟨p₂, .fread ⟨4120, buffer⟩ 0 1 8 s 0 [], p₃⟩] p₃ ∧
      Run (processes exampleStandard) exampleProcess
        [⟨exampleProcess, .heap (.malloc 16), p₁⟩, ⟨p₁, exampleOpen, p₂⟩,
          ⟨p₂, .fread ⟨4120, buffer⟩ 0 1 8 s 0 [], p₃⟩, ⟨p₃, .clearerr s, p₄⟩] p₄ := by
  obtain ⟨p₁, p₂, s, buffer, first, -, second, nonnull, files, view, length, -, run⟩ := example_opened
  have asked : ¬ (s = null ∨ (4120 : Nat) + 0 = null ∨ (1 : Nat) = 0 ∨ (8 : Nat) = 0) := by
    simpa [null] using nonnull
  have wanted : (processes exampleStandard).allowed p₂ (.fread ⟨4120, buffer⟩ 0 1 8 s 0 []) :=
    ⟨.inr (by simp [files]), by simp [view], by simp [length], .inr ⟨rfl, by decide⟩⟩
  obtain ⟨p₃, trace, read, marked⟩ : ∃ p₃ trace,
      step exampleStandard p₂ (.fread ⟨4120, buffer⟩ 0 1 8 s 0 []) = some (p₃, 0, trace) ∧
        p₃.files = [⟨s, 3, 1, 1, 0⟩] :=
    ⟨_, _, step_fread exampleStandard p₂ ⟨4120, buffer⟩ 0 [] asked (by decide),
      by simp [markFile, files]⟩
  have run₃ := run.snoc wanted (processes_step read)
  have cleared : (processes exampleStandard).allowed p₃ (.clearerr s) := .inr (by simp [marked])
  have clear : step exampleStandard p₃ (.clearerr s) = some (_, 0, []) := rfl
  have run₄ := run₃.snoc cleared (processes_step clear)
  exact ⟨p₁, p₂, p₃, _, buffer, s, _, first, second, read, clear, nonnull, marked,
    by simp [markFile, marked], run₃, run₄⟩

/-- After an fread that meets the end feof is set, and after clearerr it is not. -/
theorem stream_history_read : ∃ (p₁ p₂ p₃ p₄ : Process) (buffer : List UInt8) (s : Nat),
    Run (processes exampleStandard) exampleProcess
        [⟨exampleProcess, .heap (.malloc 16), p₁⟩, ⟨p₁, exampleOpen, p₂⟩,
          ⟨p₂, .fread ⟨4120, buffer⟩ 0 1 8 s 0 [], p₃⟩] p₃ ∧
      readFd p₃.state.memory s = 3 ∧ feof p₃.state.memory s ≠ 0 ∧ ferror p₃.state.memory s = 0 ∧
      step exampleStandard p₃ (.clearerr s) = some (p₄, 0, []) ∧
      readFd p₄.state.memory s = 3 ∧ feof p₄.state.memory s = 0 := by
  have start := exampleProcess_initial
  obtain ⟨p₁, p₂, p₃, p₄, buffer, s, -, -, -, -, clear, nonnull, marked, unmarked, run₃, run₄⟩ :=
    example_read
  obtain ⟨before, q, q', path, mode, opened, closed, kept, -, after, same, -, fd, -, -, ends, errs⟩ :=
    stream_history exampleSite exampleStandard exampleProcess p₃ _ start run₃ s (by simp [marked])
  obtain ⟨rfl, rfl⟩ := since_opened same (by simp)
  obtain ⟨before, q, q', path, mode, opened, closed, kept, -, after, same, -, fd', -, -, ends', -⟩ :=
    stream_history exampleSite exampleStandard exampleProcess p₄ _ start run₄ s (by simp [unmarked])
  obtain ⟨rfl, rfl⟩ := since_opened same (by simp)
  refine ⟨p₁, p₂, p₃, p₄, buffer, s, run₃, fd, ends.mpr ?_, ?_, clear, fd', ?_⟩
  · exact ⟨[], _, [], rfl, ⟨rfl, ⟨Nat.succ_ne_zero _, by decide, by decide⟩, rfl⟩,
      by simp⟩
  · by_contra set
    rcases since_snoc.mp (show Since _ _ ([] ++ [_]) from errs.mp set) with ⟨-, -, failed⟩ | ⟨none, -⟩
    · exact absurd failed (by decide)
    · exact not_since_nil none
  · by_contra set
    rcases since_snoc.mp (show Since _ _ ([_] ++ [_]) from ends'.mp set) with ended | ⟨-, kept⟩
    · exact ended
    · exact kept rfl

end AxiomeToolchain.Guarantees.StreamHistory
