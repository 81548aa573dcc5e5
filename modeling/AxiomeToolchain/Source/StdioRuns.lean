import AxiomeToolchain.Source.HeapRequests
import AxiomeToolchain.Source.StdioProcess

/-!
# Every call keeps the streams apart

One lemma for each of fopen, fclose, fread, fwrite, clearerr and the client's
heap calls: it returns, it names only open descriptors in its system calls, and
the process it leaves has one live FILE object and one descriptor of its own for
every open stream.
-/

set_option autoImplicit false

namespace AxiomeToolchain.Source.StdioProcess
open AxiomeToolchain.Library.ByteMemory
open AxiomeToolchain.Library.CInt
open AxiomeToolchain.Library.Tiling
open AxiomeToolchain.Library.FirstFit (release)
open AxiomeToolchain.Library.Runs
open AxiomeToolchain.Source.Heap
open AxiomeToolchain.Source.Syscall (Long SystemCall Failed)
open AxiomeToolchain.Source.StdioFiles

variable {site : Site} {std : Standard site} {p p' : Process} {st : State} {m : Memory} {n q : Nat}
  {f : OpenFile} {a : Allocation} {segs : List Segment} {view : View} {files : List OpenFile}
  {action : Action} {mode : Option (List UInt8)} {r : Int} {trace : Trace}

/-- What one call does: it returns, and its system calls and the process after it are in order. -/
def StepOk (std : Standard site) (p : Process) (action : Action) : Prop :=
  ∃ p' r trace segs, step std p action = some (p', r, trace) ∧ Held site p' segs ∧
    Sound action.kept p.table trace ∧ p'.table = tableAfter action.kept p.table trace

/-! ## Calls of the client -/

/-- A heap call of the client names one of its own allocations or none. -/
theorem Held.target_own (held : Held site p segs) {op : Op} (ok : op.allowed ⟨p.state, p.view⟩) :
    target op ∉ View.pointers (p.files.map OpenFile.allocation) ∧
      op.allowed ⟨p.state, p.allocations⟩ := by
  have no_null : null ∉ View.pointers (p.files.map OpenFile.allocation) := by
    intro member
    refine held.iso.pointer_ne_null (p := null) ?_ rfl
    rw [Process.allocations, pointers_append]
    exact List.mem_append_left _ member
  have own : ∀ x ∈ p.view.pointers, x ∉ View.pointers (p.files.map OpenFile.allocation) ∧
      x ∈ p.allocations.pointers := by
    intro x member
    obtain ⟨a, in_view, rfl⟩ := List.mem_map.mp member
    rw [Process.allocations, pointers_append]
    exact ⟨held.own_not_stream in_view, List.mem_append_right _ member⟩
  cases op with
  | malloc n => exact ⟨no_null, ok⟩
  | calloc nmemb size => exact ⟨no_null, ok⟩
  | realloc x n =>
    rcases ok.1 with isNull | member
    · exact ⟨isNull ▸ no_null, .inl isNull, ok.2⟩
    · exact ⟨(own x member).1, .inr (own x member).2, ok.2⟩
  | free x =>
    rcases ok with isNull | member
    · exact ⟨isNull ▸ no_null, .inl isNull⟩
    · exact ⟨(own x member).1, .inr (own x member).2⟩
  | write x offset bytes =>
    obtain ⟨a, in_view, rfl, inside⟩ := ok
    exact ⟨held.own_not_stream in_view, a, List.mem_append_right _ in_view, rfl, inside⟩

theorem Held.heap_ok (held : Held site p segs) (op : Op) (ok : (Action.heap op).allowed std p) :
    StepOk std p (.heap op) := by
  obtain ⟨absent, all⟩ := held.target_own ok
  obtain ⟨st, q, segs', run, after, -⟩ := held.iso.step all
  have returned : step std p (.heap op) =
      some ({ p with state := st, view := p.view.after st.memory q op }, (q : Int), []) := by
    rw [step, show op.run site p.state = some (st, q) from run, Option.map_some]
  refine ⟨_, q, [], segs', returned, ?_, trivial, rfl⟩
  exact ⟨Isolated.perm after (after_append absent), held.ranges, held.table, held.nodup⟩

/-! ## Marks on an open stream -/

/-- A store to one field of an open stream's object marks that stream. -/
theorem Held.mark (held : Held site p segs) (member : f ∈ p.files) (offset : Nat)
    (bytes : List UInt8) (mark : OpenFile → OpenFile) (inside : offset + bytes.length ≤ fileSize)
    (same : ∀ f, (mark f).ptr = f.ptr ∧ (mark f).fd = f.fd)
    (marked : ∀ f, Heap.overwrite f.data offset bytes = (mark f).data)
    (ranges : ∀ f : OpenFile, f.Ranges → (mark f).Ranges) :
    Held site { p with
      state := { p.state with memory := writeBytes p.state.memory (f.ptr + offset) bytes }
      files := markFile p.files f.ptr mark } segs where
  iso := by
    have written := (held.iso.write (held.file_member member) offset bytes
      (by rw [show f.allocation.data.length = fileSize from data_length f]; exact inside)).1
    rw [Process.allocations, overwrite_append,
      overwrite_absent (x := f.allocation.ptr) (held.stream_not_own member),
      mark_allocations mark (fun f => (same f).1) marked] at written
    exact written
  ranges := by
    intro g in_files
    obtain ⟨g, original, rfl⟩ := List.mem_map.mp in_files
    split
    · exact ranges g (held.ranges g original)
    · exact held.ranges g original
  table := by
    have descriptors : (markFile p.files f.ptr mark).map OpenFile.fd = p.files.map OpenFile.fd := by
      rw [markFile, List.map_map]
      apply List.map_congr_left
      intro g _
      simp only [Function.comp_apply]
      split
      · exact (same g).2
      · rfl
    rw [descriptors]
    exact held.table
  nodup := held.nodup

theorem Held.mark_err (held : Held site p segs) (member : f ∈ p.files) (v : Int)
    (bit : v = 0 ∨ v = 1) :
    Held site { p with
      state := { p.state with memory := writeErr p.state.memory f.ptr v }
      files := markFile p.files f.ptr (fun f => { f with err := v }) } segs := by
  rw [writeErr_eq]
  refine held.mark member 12 _ _ (by rw [digits_length]; decide) (fun f => ⟨rfl, rfl⟩)
    (fun f => data_err f v) (fun f range => ⟨range.fd, range.flags, range.eof, bit⟩)

theorem Held.mark_eof (held : Held site p segs) (member : f ∈ p.files) (v : Int)
    (bit : v = 0 ∨ v = 1) :
    Held site { p with
      state := { p.state with memory := writeEof p.state.memory f.ptr v }
      files := markFile p.files f.ptr (fun f => { f with eof := v }) } segs := by
  rw [writeEof_eq]
  refine held.mark member 8 _ _ (by rw [digits_length]; decide) (fun f => ⟨rfl, rfl⟩)
    (fun f => data_eof f v) (fun f range => ⟨range.fd, range.flags, bit, range.err⟩)

theorem Held.errno (held : Held site p segs) (e : Int) :
    Held site { p with state := { p.state with errno := e } } segs :=
  ⟨held.iso.errno e, held.ranges, held.table, held.nodup⟩

/-! ## fopen -/

theorem plainMode_flags {c : UInt8} {plain : Mode} (found : plainMode c = some plain) :
    0 ≤ plain.flags ∧ plain.flags ≤ 3 := by
  unfold plainMode at found
  split at found
  · cases found
    decide
  · split at found
    · cases found
      decide
    · split at found
      · cases found
        decide
      · cases found

theorem parseMode_flags {mode : Option (List UInt8)} {parsed : Mode}
    (found : parseMode mode = some (some parsed)) :
    openedFlags mode = parsed.flags ∧ 0 ≤ parsed.flags ∧ parsed.flags ≤ 3 := by
  refine ⟨by rw [openedFlags, found]; rfl, ?_⟩
  cases mode with
  | none => cases found
  | some m =>
    cases m with
    | nil => cases found
    | cons c rest =>
      rw [parseMode] at found
      split at found
      · cases found
      · cases plain : plainMode c with
        | none =>
          rw [plain] at found
          cases found
        | some base =>
          rw [plain, Option.elim_some] at found
          obtain ⟨d, -, same⟩ := Option.map_eq_some_iff.mp found
          cases same
          split
          · exact ⟨(show (0 : Int) ≤ 3 by decide), Int.le_refl 3⟩
          · exact plainMode_flags plain

/-- The object that malloc granted, after the eight assignments. -/
theorem opened_isolated {fd flags : Int} {out : List Segment}
    (after : Isolated site ⟨st, ⟨q, bytesAt st.memory q fileSize⟩ :: view⟩ out) :
    Isolated site ⟨{ st with memory := initFile st.memory q fd flags },
      (OpenFile.mk q fd flags 0 0).allocation :: view⟩ out := by
  have fresh : q ∉ view.pointers :=
    (List.nodup_cons.mp (show (q :: view.pointers).Nodup from after.inv.live_nodup)).1
  have written := (after.write List.mem_cons_self 0 (OpenFile.mk q fd flags 0 0).data (by simp)).1
  have whole : Heap.overwrite (bytesAt st.memory q fileSize) 0 (OpenFile.mk q fd flags 0 0).data =
      (OpenFile.mk q fd flags 0 0).data := by
    simp [overwrite]
  rw [overwrite_head _ _ _ _ fresh, whole] at written
  rw [initFile_eq]
  exact written

/-- The four ways fopen ends: the process after it, the pointer returned and the
system calls made. -/
inductive Opens (site : Site) (p : Process) (path : Long) (mode : Option (List UInt8))
    (opened closed : Int) (kept : Bool) : Process → Nat → Trace → Prop
  | rejected (noMode : parseMode mode = some none) : Opens site p path mode opened closed kept p null []
  | denied {parsed : Mode} (found : parseMode mode = some (some parsed)) (failed : Failed opened) :
    Opens site p path mode opened closed kept
      { p with state := { p.state with errno := -opened } } null [(openOf path parsed, opened)]
  | full {parsed : Mode} {p' : Process} (found : parseMode mode = some (some parsed))
      (success : ¬ Failed opened) (noRoom : NoRoom site p.state fileSize)
      (files : p'.files = p.files) (view : p'.view = p.view)
      (blocks : blockList site p'.state = blockList site p.state)
      (table : p'.table = if Failed closed ∧ kept then opened :: p.table else p.table) :
    Opens site p path mode opened closed kept p' null
      [(openOf path parsed, opened), (.close (BitVec.ofInt 32 opened), closed)]
  | granted {parsed : Mode} {p' : Process} {q : Nat} (found : parseMode mode = some (some parsed))
      (success : ¬ Failed opened) (room : ¬ NoRoom site p.state fileSize) (nonnull : q ≠ null)
      (fresh : q ∉ p.allocations.pointers)
      (files : p'.files = ⟨q, opened, parsed.flags, 0, 0⟩ :: p.files) (view : p'.view = p.view)
      (table : p'.table = opened :: p.table) :
    Opens site p path mode opened closed kept p' q [(openOf path parsed, opened)]

/-- The descriptor of a stream that gets no object is closed, and released unless
the close fails and the kernel keeps it. -/
theorem Held.fopen_full (held : Held site p segs) (std : Standard site) (path : Long)
    {parsed : Mode} {opened : Int} (closed : Int) (kept : Bool)
    (found : parseMode mode = some (some parsed)) (low : 0 ≤ opened)
    (high : opened ≤ intMax) (fresh : opened ∉ p.table) (noRoom : NoRoom site p.state fileSize)
    (full : malloc site p.state fileSize = some (st, null))
    (after : Isolated site ⟨st, p.allocations⟩ segs) :
    ∃ p' trace,
      step std p (.fopen path mode opened closed kept) = some (p', ((null : Nat) : Int), trace) ∧
      Held site p' segs ∧ Opens site p path mode opened closed kept p' null trace ∧
      Sound kept p.table trace ∧ p'.table = tableAfter kept p.table trace := by
  have success : ¬ Failed opened := fun failed => by have := failed.2; omega
  have run : StdioFiles.fopen site p.state path mode opened closed = _ :=
    StdioFiles.fopen_full found low high full
  have table : tableAfter kept p.table
      [(openOf path parsed, opened), (.close (BitVec.ofInt 32 opened), closed)] =
      if Failed closed ∧ kept then opened :: p.table else p.table := by
    simp only [openOf, tableAfter, if_neg success, toInt_ofInt low high, List.erase_cons_head]
  have returned : step std p (.fopen path mode opened closed kept) = some ({ p with
      state := { st with
        errno := ((Syscall.SystemCall.close (BitVec.ofInt 32 opened)).perform st.errno closed).2 }
      table := if Failed closed ∧ kept then opened :: p.table else p.table
      others := (if Failed closed ∧ kept then [opened] else []) ++ p.others },
      ((null : Nat) : Int),
      [(openOf path parsed, opened), (.close (BitVec.ofInt 32 opened), closed)]) := by
    rw [step, run, Option.map_some]
    simp only [if_true, table]
    simp only [leftOpen, openOf, toInt_ofInt low high]
  refine ⟨_, _, returned, ?_, ?_, ?_, table.symm⟩
  · have errno := after.errno
      ((Syscall.SystemCall.close (BitVec.ofInt 32 opened)).perform st.errno closed).2
    by_cases stays : Failed closed ∧ kept = true
    · simp only [if_pos stays]
      exact ⟨errno, held.ranges, (held.table.cons opened).trans List.perm_middle.symm,
        List.nodup_cons.mpr ⟨fresh, held.nodup⟩⟩
    · simp only [if_neg stays]
      exact ⟨errno, held.ranges, held.table, held.nodup⟩
  · exact .full found success noRoom rfl rfl
      ((blockList_eq (after.errno _).inv.heap).trans (blockList_eq held.iso.inv.heap).symm) rfl
  · simp only [Sound, openOf, tableAfter, if_neg success, toInt_ofInt low high]
    exact ⟨trivial, List.mem_cons_self, trivial⟩

theorem Held.fopen_cases (held : Held site p segs) (std : Standard site) (path : Long)
    (mode : Option (List UInt8)) (opened closed : Int) (kept : Bool)
    (ok : (Action.fopen path mode opened closed kept).allowed std p) :
    ∃ p' q trace segs',
      step std p (.fopen path mode opened closed kept) = some (p', ((q : Nat) : Int), trace) ∧
      Held site p' segs' ∧ Opens site p path mode opened closed kept p' q trace ∧
      Sound kept p.table trace ∧ p'.table = tableAfter kept p.table trace := by
  obtain ⟨ended, answer, -⟩ := ok
  obtain ⟨parsed, found⟩ := parseMode_total ended
  cases parsed with
  | none =>
    have run : StdioFiles.fopen site p.state path mode opened closed = _ := fopen_rejected found
    refine ⟨p, null, [], segs, ?_, held, .rejected found, trivial, rfl⟩
    rw [step, run]
    rfl
  | some parsed =>
    rcases answer with failed | ⟨low, high, fresh⟩
    · have run : StdioFiles.fopen site p.state path mode opened closed = _ :=
        fopen_denied found failed
      refine ⟨_, null, _, segs, ?_, held.errno (-opened), .denied found failed, ⟨trivial, trivial⟩, ?_⟩
      · rw [step, run]
        simp only [Option.map_some, if_true, openOf, tableAfter, leftOpen, if_pos failed,
          List.nil_append]
      · rw [openOf, tableAfter, if_pos failed]
        rfl
    · have success : ¬ Failed opened := fun failed => by have := failed.2; omega
      rcases held.iso.malloc_room (n := fileSize) (by decide) (by decide) with
        ⟨noRoom, st, full, after⟩ | ⟨room, st, q, out, granted, nonnull, fresh_ptr, after⟩
      · obtain ⟨p', trace, outcome⟩ := held.fopen_full std path closed kept found low
          high fresh noRoom full after
        exact ⟨p', null, trace, segs, outcome⟩
      · have run : StdioFiles.fopen site p.state path mode opened closed = _ :=
          fopen_opened found low high nonnull granted
        obtain ⟨flags, range⟩ := parseMode_flags found
        have table : tableAfter kept p.table [(openOf path parsed, opened)] = opened :: p.table := by
          rw [openOf, tableAfter, if_neg success]
          rfl
        refine ⟨{ p with
          state := { st with memory := initFile st.memory q opened parsed.flags }
          files := ⟨q, opened, parsed.flags, 0, 0⟩ :: p.files
          table := opened :: p.table }, q, [(openOf path parsed, opened)], out, ?_, ?_, ?_,
          ⟨trivial, trivial⟩, table.symm⟩
        · rw [step, run]
          simp only [Option.map_some, if_neg nonnull, flags, table]
          rfl
        · refine ⟨opened_isolated after, ?_, held.table.cons opened,
            List.nodup_cons.mpr ⟨fresh, held.nodup⟩⟩
          intro g member
          rcases List.mem_cons.mp member with rfl | old
          · exact ⟨⟨low, high⟩, range, .inl rfl, .inl rfl⟩
          · exact held.ranges g old
        · exact .granted found success room nonnull fresh_ptr rfl rfl rfl

theorem Held.fopen_ok (held : Held site p segs) (path : Long) (mode : Option (List UInt8))
    (opened closed : Int) (kept : Bool)
    (ok : (Action.fopen path mode opened closed kept).allowed std p) :
    StepOk std p (.fopen path mode opened closed kept) := by
  obtain ⟨p', q, trace, segs', run, after, -, sound, table⟩ :=
    held.fopen_cases std path mode opened closed kept ok
  exact ⟨p', q, trace, segs', run, after, sound, table⟩

/-! ## fclose -/

theorem Held.fd_open (held : Held site p segs) (member : f ∈ p.files) : f.fd ∈ p.table :=
  held.table.mem_iff.mpr (List.mem_append_left _ (List.mem_map_of_mem member))

/-- The descriptor that the object in memory names. -/
theorem Held.toInt_fd (held : Held site p segs) (member : f ∈ p.files) :
    (BitVec.ofInt 32 (readFd p.state.memory f.ptr)).toInt = f.fd := by
  have range := (held.ranges f member).fd
  rw [(held.reads member).fd, toInt_ofInt range.1 range.2]

theorem files_perm (nodup : (files.map OpenFile.ptr).Nodup) (member : f ∈ files) :
    files.Perm (f :: files.filter (fun g => g.ptr ≠ f.ptr)) := by
  induction files with
  | nil => cases member
  | cons g rest ih =>
    obtain ⟨fresh, nodup⟩ := List.nodup_cons.mp nodup
    rcases List.mem_cons.mp member with rfl | later
    · have kept : rest.filter (fun g => g.ptr ≠ f.ptr) = rest :=
        List.filter_eq_self.mpr (fun g in_rest => by
          have different : g.ptr ≠ f.ptr := fun same => fresh (same ▸ List.mem_map_of_mem in_rest)
          simpa using different)
      rw [List.filter_cons_of_neg (by simp), kept]
    · have different : g.ptr ≠ f.ptr := fun same => fresh (same ▸ List.mem_map_of_mem later)
      rw [List.filter_cons_of_pos (by simpa using different)]
      exact ((ih nodup later).cons g).trans (.swap f g _)

theorem Held.without (held : Held site p segs) (member : f ∈ p.files) :
    p.allocations.remove f.ptr =
        (p.files.filter (fun g => g.ptr ≠ f.ptr)).map OpenFile.allocation ++ p.view ∧
      p.table.Perm
        (f.fd :: ((p.files.filter (fun g => g.ptr ≠ f.ptr)).map OpenFile.fd ++ p.others)) := by
  constructor
  · have view := View.remove_absent (held.stream_not_own member)
    rw [View.remove] at view
    rw [View.remove, Process.allocations, List.filter_append, view, List.filter_map]
    rfl
  · have nodup := (List.nodup_append.mp held.pointers).1
    exact held.table.trans (((files_perm nodup member).map OpenFile.fd).append_right p.others)

/-- fclose of an open stream closes its descriptor and frees its object. -/
theorem Held.fclose_file (held : Held site p segs) (std : Standard site) (member : f ∈ p.files)
    (closed : Int) (kept : Bool) :
    ∃ p' r segs', step std p (.fclose f.ptr closed kept) =
        some (p', r, [(.close (BitVec.ofInt 32 f.fd), closed)]) ∧ Held site p' segs' ∧
      p'.files = p.files.filter (fun g => g.ptr ≠ f.ptr) ∧
      p'.table = if Failed closed ∧ kept then p.table else p.table.erase f.fd := by
  have start : StdioFiles.fclose std p.state f.ptr closed = _ :=
    fclose_opened (held.stream_ne_null member) (held.stream_not_standard std member)
      (held.reads member).buf
  obtain ⟨st, run, after, -⟩ := (held.iso.errno
    ((closeOf p.state.memory f.ptr).perform p.state.errno closed).2).free
    (List.mem_map_of_mem (held.file_member member))
  obtain ⟨allocations, table⟩ := held.without member
  rw [show free _ f.ptr = some st from run, Option.map_some] at start
  rw [show View.remove _ f.allocation.ptr = _ from allocations] at after
  have names : closeOf p.state.memory f.ptr = .close (BitVec.ofInt 32 f.fd) := by
    rw [closeOf, (held.reads member).fd]
  have range := (held.ranges f member).fd
  have ranges : ∀ g ∈ p.files.filter (fun g => g.ptr ≠ f.ptr), g.Ranges :=
    fun g kept => held.ranges g (List.mem_filter.mp kept).1
  have returned : step std p (.fclose f.ptr closed kept) = some ({ p with
      state := st
      files := p.files.filter (fun g => g.ptr ≠ f.ptr)
      table := if Failed closed ∧ kept then p.table else p.table.erase f.fd
      others := (if Failed closed ∧ kept then [f.fd] else []) ++ p.others },
      if ((closeOf p.state.memory f.ptr).perform p.state.errno closed).1 < 0 then eofMarker else 0,
      [(.close (BitVec.ofInt 32 f.fd), closed)]) := by
    rw [step, start]
    simp only [Option.map_some, names, tableAfter, leftOpen, toInt_ofInt range.1 range.2,
      List.cons_ne_nil, if_false]
  refine ⟨_, _, release blockSize (f.allocation.ptr - blockSize) segs, returned, ?_, rfl, rfl⟩
  by_cases stays : Failed closed ∧ kept = true
  · simp only [if_pos stays]
    exact ⟨after, ranges, table.trans List.perm_middle.symm, held.nodup⟩
  · have erased := table.erase f.fd
    rw [List.erase_cons_head] at erased
    simp only [if_neg stays, List.nil_append]
    exact ⟨after, ranges, erased, held.nodup.erase f.fd⟩

theorem Held.fclose_ok (held : Held site p segs) (stream : Nat) (closed : Int) (kept : Bool)
    (ok : (Action.fclose stream closed kept).allowed std p) :
    StepOk std p (.fclose stream closed kept) := by
  obtain ⟨known, -⟩ := ok
  by_cases idle : stream = null ∨ stream = std.stdin ∨ stream = std.stdout ∨ stream = std.stderr
  · have run : ∃ r, StdioFiles.fclose std p.state stream closed = some (p.state, r, []) := by
      rw [StdioFiles.fclose]
      by_cases isNull : stream = null
      · exact ⟨_, if_pos isNull⟩
      · rw [if_neg isNull]
        exact ⟨_, if_pos (idle.resolve_left isNull)⟩
    obtain ⟨r, run⟩ := run
    refine ⟨_, _, [], segs, by rw [step, run]; rfl, ?_, trivial, rfl⟩
    exact held
  · obtain ⟨nonnull, heap⟩ := not_or.mp idle
    obtain ⟨f, member, rfl⟩ := List.mem_map.mp ((known.resolve_right heap).resolve_left nonnull)
    have range := (held.ranges f member).fd
    obtain ⟨p', r, segs', run, after, -, table⟩ := held.fclose_file std member closed kept
    refine ⟨p', r, _, segs', run, after, ⟨?_, trivial⟩, ?_⟩
    · show (BitVec.ofInt 32 f.fd).toInt ∈ p.table
      rw [toInt_ofInt range.1 range.2]
      exact held.fd_open member
    · simp only [table, tableAfter, Action.kept, toInt_ofInt range.1 range.2]

/-! ## fread, fwrite and clearerr -/

theorem markFile_absent {x : Nat} (absent : x ∉ files.map OpenFile.ptr) (mark : OpenFile → OpenFile) :
    markFile files x mark = files := by
  refine (List.map_congr_left (fun f member => ?_)).trans (List.map_id files)
  have different : f.ptr ≠ x := fun same => absent (same ▸ List.mem_map_of_mem member)
  simp [different]

theorem markFile_twice (files : List OpenFile) (x : Nat) {mark other : OpenFile → OpenFile}
    (same : ∀ f, (mark f).ptr = f.ptr) :
    markFile (markFile files x mark) x other = markFile files x (fun f => other (mark f)) := by
  simp only [markFile, List.map_map]
  apply List.map_congr_left
  intro f _
  simp only [Function.comp_apply]
  by_cases here : f.ptr = x
  · rw [if_pos here, if_pos here, if_pos ((same f).trans here)]
  · rw [if_neg here, if_neg here, if_neg here]

theorem markFile_same (files : List OpenFile) (x : Nat) : markFile files x (fun f => f) = files := by
  simp [markFile]

/-- What the kernel reads into a buffer of the client. -/
theorem Held.stored (held : Held site p segs) (member : a ∈ p.view) (offset : Nat)
    (data : List UInt8) (inside : offset + data.length ≤ a.data.length) :
    Held site { p with
      state := { p.state with memory := writeBytes p.state.memory (a.ptr + offset) data }
      view := p.view.overwrite a.ptr offset data } segs where
  iso := by
    have written := (held.iso.write (List.mem_append_right _ member) offset data inside).1
    rw [Process.allocations, overwrite_append, overwrite_absent (held.own_not_stream member)] at written
    exact written
  ranges := held.ranges
  table := held.table
  nodup := held.nodup

/-- An fread that asks for something and is not refused. -/
theorem step_fread (std : Standard site) (p : Process) (a : Allocation)
    {offset size nmemb stream : Nat} (raw : Int) (data : List UInt8)
    (asked : ¬ (stream = null ∨ a.ptr + offset = null ∨ size = 0 ∨ nmemb = 0)) (low : 0 ≤ raw) :
    step std p (.fread a offset size nmemb stream raw data) = some ({ p with
      state := { p.state with
        memory := if raw = 0 then
            writeEof (writeBytes p.state.memory (a.ptr + offset) data) stream 1
          else writeBytes p.state.memory (a.ptr + offset) data }
      files := if raw = 0 then markFile p.files stream (fun f => { f with eof := 1 }) else p.files
      view := p.view.overwrite a.ptr offset data }, ((raw.toNat / size : Nat) : Int),
      [(readOf p.state.memory (a.ptr + offset) size nmemb stream, raw)]) := by
  have success : ¬ Failed raw := fun failed => by have := failed.2; omega
  have run : StdioFiles.fread p.state (a.ptr + offset) size nmemb stream raw data = _ :=
    fread_done asked low
  simp only [step, run, List.cons_ne_nil, if_false, if_neg success]
  split
  · rfl
  · rw [markFile_same]

theorem Held.fread_ok (held : Held site p segs) (a : Allocation) (offset size nmemb stream : Nat)
    (raw : Int) (data : List UInt8)
    (ok : (Action.fread a offset size nmemb stream raw data).allowed std p) :
    StepOk std p (.fread a offset size nmemb stream raw data) := by
  obtain ⟨known, member, inside, answer⟩ := ok
  by_cases idle : stream = null ∨ a.ptr + offset = null ∨ size = 0 ∨ nmemb = 0
  · have run : StdioFiles.fread p.state (a.ptr + offset) size nmemb stream raw data =
        (p.state, 0, []) := by
      rw [StdioFiles.fread, if_pos idle]
    refine ⟨p, 0, [], segs, ?_, held, trivial, rfl⟩
    simp only [step, run, if_true]
    rfl
  · obtain ⟨f, in_files, rfl⟩ :=
      List.mem_map.mp (known.resolve_left (fun isNull => idle (.inl isNull)))
    have names : (BitVec.ofInt 32 (readFd p.state.memory f.ptr)).toInt ∈ p.table := by
      rw [held.toInt_fd in_files]
      exact held.fd_open in_files
    rcases answer with ⟨failed, rfl⟩ | ⟨rfl, short⟩
    · have run : StdioFiles.fread p.state (a.ptr + offset) size nmemb f.ptr raw [] = _ :=
        fread_failed idle failed
      have stored := (held.errno (-raw)).stored member offset [] (by simp; omega)
      have marked := stored.mark_err in_files 1 (.inr rfl)
      refine ⟨{ p with
        state := { p.state with errno := -raw, memory := writeErr p.state.memory f.ptr 1 }
        files := markFile p.files f.ptr (fun f => { f with err := 1 })
        view := p.view.overwrite a.ptr offset [] }, 0,
        [(readOf p.state.memory (a.ptr + offset) size nmemb f.ptr, raw)], segs, ?_, marked,
        ⟨names, trivial⟩, rfl⟩
      simp only [step, run, List.cons_ne_nil, if_false, if_pos failed]
      rfl
    · have low : (0 : Int) ≤ data.length := Int.natCast_nonneg _
      have stored := held.stored member offset data (by omega)
      refine ⟨_, _, _, segs, step_fread std p a _ data idle low, ?_, ⟨names, trivial⟩, rfl⟩
      by_cases empty : (data.length : Int) = 0
      · simp only [if_pos empty]
        exact stored.mark_eof in_files 1 (.inr rfl)
      · simp only [if_neg empty]
        exact stored

theorem Held.fwrite_ok (held : Held site p segs) (ptr size nmemb stream : Nat) (raw : Int)
    (ok : (Action.fwrite ptr size nmemb stream raw).allowed std p) :
    StepOk std p (.fwrite ptr size nmemb stream raw) := by
  obtain ⟨known, fits, answer⟩ := ok
  by_cases idle : stream = null ∨ ptr = null ∨ size = 0 ∨ nmemb = 0
  · have run : StdioFiles.fwrite p.state ptr size nmemb stream raw = (p.state, 0, []) := by
      rw [StdioFiles.fwrite, if_pos idle]
    refine ⟨p, 0, [], segs, ?_, held, trivial, rfl⟩
    simp only [step, run, if_true]
    rfl
  · obtain ⟨f, in_files, rfl⟩ :=
      List.mem_map.mp (known.resolve_left (fun isNull => idle (.inl isNull)))
    have names : (BitVec.ofInt 32 (readFd p.state.memory f.ptr)).toInt ∈ p.table := by
      rw [held.toInt_fd in_files]
      exact held.fd_open in_files
    rcases answer with failed | ⟨low, -⟩
    · have run : StdioFiles.fwrite p.state ptr size nmemb f.ptr raw = _ := fwrite_failed idle failed
      refine ⟨_, 0, [(writeOf p.state.memory ptr size nmemb f.ptr, raw)], segs, ?_,
        (held.errno (-raw)).mark_err in_files 1 (.inr rfl), ⟨names, trivial⟩, rfl⟩
      simp only [step, run, List.cons_ne_nil, if_false, if_pos failed]
      rfl
    · have success : ¬ Failed raw := fun failed => by have := failed.2; omega
      have run : StdioFiles.fwrite p.state ptr size nmemb f.ptr raw = _ := fwrite_done idle low
      refine ⟨p, (raw.toNat / size : Nat), [(writeOf p.state.memory ptr size nmemb f.ptr, raw)],
        segs, ?_, held,
        ⟨names, trivial⟩, rfl⟩
      simp only [step, run, List.cons_ne_nil, if_false, if_neg success, markFile_same]

theorem Held.clearerr_ok (held : Held site p segs) (stream : Nat)
    (ok : (Action.clearerr stream).allowed std p) : StepOk std p (.clearerr stream) := by
  refine ⟨_, 0, [], segs, rfl, ?_, trivial, rfl⟩
  rw [StdioFiles.clearerr]
  by_cases isNull : stream = null
  · have absent : stream ∉ p.files.map OpenFile.ptr := by
      intro member
      obtain ⟨f, in_files, same⟩ := List.mem_map.mp member
      exact held.stream_ne_null in_files (same.trans isNull)
    rw [if_neg (not_not.mpr isNull), markFile_absent absent]
    exact held
  · obtain ⟨f, in_files, rfl⟩ := List.mem_map.mp (ok.resolve_left isNull)
    rw [if_pos isNull]
    have cleared := held.mark_eof in_files 0 (.inl rfl)
    have marked : { f with eof := 0 } ∈ markFile p.files f.ptr (fun f => { f with eof := 0 }) :=
      List.mem_map.mpr ⟨f, in_files, if_pos rfl⟩
    have twice : markFile (markFile p.files f.ptr (fun f => { f with eof := 0 })) f.ptr
        (fun f => { f with err := 0 }) =
        markFile p.files f.ptr (fun f => { f with eof := 0, err := 0 }) :=
      markFile_twice _ _ (fun _ => rfl)
    rw [← twice]
    exact cleared.mark_err marked 0 (.inl rfl)

/-! ## Runs -/

theorem Held.step (held : Held site p segs) (ok : action.allowed std p) : StepOk std p action := by
  cases action with
  | heap op => exact held.heap_ok op ok
  | fopen path mode opened closed kept => exact held.fopen_ok path mode opened closed kept ok
  | fclose stream closed kept => exact held.fclose_ok stream closed kept ok
  | fread a offset size nmemb stream raw data =>
    exact held.fread_ok a offset size nmemb stream raw data ok
  | fwrite ptr size nmemb stream raw => exact held.fwrite_ok ptr size nmemb stream raw ok
  | clearerr stream => exact held.clearerr_ok stream ok

theorem processes_step (run : step std p action = some (p', r, trace)) :
    (processes std).step p action = some p' := by
  simp only [processes, run, Option.map_some]

theorem reachable_held (reach : Reachable (processes std) p) : ∃ segs, Held site p segs := by
  refine reach.invariant (P := fun p => ∃ segs, Held site p segs) ?_ ?_
  · exact fun p start => ⟨_, Held.initial start⟩
  · rintro p action p' ⟨segs, held⟩ ok ret
    obtain ⟨d, r, trace, out, run, after, -⟩ := held.step ok
    have same : d = p' := by
      exact Option.some.inj ((processes_step run).symm.trans ret)
    exact ⟨out, same ▸ after⟩

end AxiomeToolchain.Source.StdioProcess
