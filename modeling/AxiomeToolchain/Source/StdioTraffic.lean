import AxiomeToolchain.Source.StdioLines

/-!
# Input and output calls in one run

The calls of StdioCalls and StdioInput in any order, over one kernel. An input
call adds reads of its own descriptor and hands their bytes to its caller; an
output call adds writes.
-/

set_option autoImplicit false

namespace AxiomeToolchain.Source.Stdio
open AxiomeToolchain.Library.CInt
open AxiomeToolchain.Library.Runs

inductive IoCall where
  | input (call : InputCall)
  | output (call : OutputCall)

def IoCall.allowed : IoCall → Prop
  | .input call => call.allowed
  | .output call => call.allowed

def IoCall.run (kernel : Kernel) (st : State) : IoCall → Option State
  | .input call => some (call.run kernel st).1
  | .output call => call.run kernel st

def ioCalls (kernel : Kernel) : System State IoCall where
  initial := Started
  allowed _ call := call.allowed
  step st call := call.run kernel st

/-- The bytes a caller has in hand after an input call. -/
def Outcome.bytes : Outcome → List UInt8
  | .count _ stored => stored
  | .char c => if c = eofMarker then [] else [UInt8.ofInt c]
  | .line s => s.getD []

/-- The bytes the kernel delivered on a descriptor, in order. -/
def deliveredOn (fd : Int) (rs : List ReadCall) : List UInt8 :=
  (rs.filter (fun r => r.fd = fd)).flatMap (fun r => r.result.getD [])

variable {kernel : Kernel} {st st' st'' : State} {stream : Stream} {fd : Int} {xs ys : List UInt8}

theorem deliveredOn_append (fd : Int) (rs qs : List ReadCall) :
    deliveredOn fd (rs ++ qs) = deliveredOn fd rs ++ deliveredOn fd qs := by
  simp [deliveredOn]

/-- From `st` to `st'` the kernel was asked for input on `fd` only, and delivered
`bytes`. -/
structure Taken (st st' : State) (fd : Int) (bytes : List UInt8) : Prop where
  reads : ∃ rs, st'.reads = st.reads ++ rs ∧ (∀ r ∈ rs, r.fd = fd) ∧ deliveredOn fd rs = bytes
  fds : ∀ s, (st'.files s).fd = (st.files s).fd
  writes : st'.writes = st.writes
  outlen : st'.outlen = st.outlen

theorem Taken.refl (st : State) (fd : Int) : Taken st st fd [] where
  reads := ⟨[], (List.append_nil _).symm, by simp, rfl⟩
  fds _ := rfl
  writes := rfl
  outlen := rfl

theorem Taken.trans (first : Taken st st' fd xs) (second : Taken st' st'' fd ys) :
    Taken st st'' fd (xs ++ ys) := by
  obtain ⟨rs, reads, own, bytes⟩ := first.reads
  obtain ⟨qs, reads', own', bytes'⟩ := second.reads
  refine ⟨⟨rs ++ qs, ?_, ?_, ?_⟩, fun s => (second.fds s).trans (first.fds s),
    second.writes.trans first.writes, second.outlen.trans first.outlen⟩
  · rw [reads', reads, List.append_assoc]
  · intro r member
    exact (List.mem_append.mp member).elim (own r) (own' r)
  · rw [deliveredOn_append, bytes, bytes']

theorem deliveredOn_other {rs : List ReadCall} (own : ∀ r ∈ rs, r.fd = fd) {d : Int}
    (other : fd ≠ d) : deliveredOn d rs = [] := by
  have none_left : rs.filter (fun r => r.fd = d) = [] := by
    rw [List.filter_eq_nil_iff]
    intro r member
    simpa [own r member] using other
  rw [deliveredOn, none_left, List.flatMap_nil]

/-- On the descriptor of the call its bytes come behind the ones before, on the
others nothing changes. -/
theorem Taken.delivered (taken : Taken st st' fd xs) (d : Int) :
    deliveredOn d st'.reads = deliveredOn d st.reads ++ if fd = d then xs else [] := by
  obtain ⟨rs, reads, own, bytes⟩ := taken.reads
  rw [reads, deliveredOn_append]
  split
  · next same => rw [← same, bytes]
  · next other => rw [deliveredOn_other own other]

/-! ## The input calls -/

theorem read_taken (kernel : Kernel) (st : State) (fd : Int) (len : Nat) :
    Taken st (read kernel st fd len).1 fd ((read kernel st fd len).2.getD []) where
  reads := ⟨[⟨fd, len, kernel.read st.reads.length fd len⟩], rfl, by simp,
    by simp [deliveredOn, read]⟩
  fds _ := rfl
  writes := rfl
  outlen := rfl

theorem update_fds (files : Stream → File) (stream : Stream) {file : File}
    (same : file.fd = (files stream).fd) (s : Stream) :
    (Function.update files stream file s).fd = (files s).fd := by
  rw [Function.update_apply]
  split
  · next at_stream => rw [same, at_stream]
  · rfl

/-- Setting a mark of a stream takes nothing. -/
theorem Taken.setErr (taken : Taken st st' fd xs) (stream : Stream) :
    Taken st (Stdio.setErr st' stream) fd xs where
  reads := taken.reads
  fds s := (update_fds st'.files stream (by rfl) s).trans (taken.fds s)
  writes := taken.writes
  outlen := taken.outlen

theorem Taken.setEof (taken : Taken st st' fd xs) (stream : Stream) :
    Taken st (Stdio.setEof st' stream) fd xs where
  reads := taken.reads
  fds s := (update_fds st'.files stream (by rfl) s).trans (taken.fds s)
  writes := taken.writes
  outlen := taken.outlen

theorem fread_taken (kernel : Kernel) (st : State) (size nmemb : Nat) (stream : Stream) :
    Taken st (fread kernel st true size nmemb stream).1 (st.files stream).fd
      (fread kernel st true size nmemb stream).2.2 := by
  have asked := read_taken kernel st (st.files stream).fd (u64Mul size nmemb)
  rw [fread]
  split
  · exact .refl st _
  · cases answer : kernel.read st.reads.length (st.files stream).fd (u64Mul size nmemb) with
    | none =>
      simp only [read, answer] at asked ⊢
      exact asked.setErr stream
    | some bytes =>
      simp only [read, answer] at asked ⊢
      split
      · exact asked.setEof stream
      · exact asked

/-- The count is the number of whole elements among the bytes stored. -/
theorem fread_stored (kernel : Kernel) (st : State) (size nmemb : Nat) (stream : Stream) :
    (fread kernel st true size nmemb stream).2.1 =
        (fread kernel st true size nmemb stream).2.2.length / size ∧
      (fread kernel st true size nmemb stream).2.2.length ≤ u64Mul size nmemb := by
  rw [fread]
  split
  · exact ⟨(Nat.zero_div size).symm, Nat.zero_le _⟩
  · cases answer : kernel.read st.reads.length (st.files stream).fd (u64Mul size nmemb) with
    | none =>
      simp only [read, answer]
      exact ⟨(Nat.zero_div size).symm, Nat.zero_le _⟩
    | some bytes =>
      simp only [read, answer]
      exact ⟨trivial, kernel.read_count answer⟩

theorem char_bytes (c : UInt8) : (Outcome.char (c.toNat : Int)).bytes = [c] := by
  have some_char : ¬ (c.toNat : Int) = eofMarker := by unfold eofMarker; omega
  rw [Outcome.bytes, if_neg some_char, ofInt_toNat]

/-- A character is handed over as soon as the kernel delivers it. -/
theorem fgetc_taken (kernel : Kernel) (st : State) (stream : Stream) :
    Taken st (fgetc kernel st stream).1 (st.files stream).fd
      (Outcome.char (fgetc kernel st stream).2).bytes := by
  have taken := fread_taken kernel st 1 1 stream
  have stored := fread_stored kernel st 1 1 stream
  unfold fgetc
  generalize fread kernel st true 1 1 stream = out at taken stored
  obtain ⟨next, n, bytes⟩ := out
  obtain ⟨counted, most⟩ := stored
  cases bytes with
  | nil =>
    obtain rfl : n = 0 := counted.trans (Nat.zero_div 1)
    exact taken
  | cons c rest =>
    cases rest with
    | nil =>
      obtain rfl : n = 1 := counted.trans (Nat.div_one 1)
      exact (char_bytes c).symm ▸ taken
    | cons => simp [u64Mul, wordModulus] at most

theorem getchar_taken (kernel : Kernel) (st : State) :
    Taken st (getchar kernel st).1 0 (Outcome.char (getchar kernel st).2).bytes := by
  have taken := read_taken kernel st 0 1
  cases answer : kernel.read st.reads.length 0 1 with
  | none =>
    simp only [getchar, read, answer] at taken ⊢
    exact taken
  | some bytes =>
    have most := kernel.read_count answer
    simp only [getchar, read, answer] at taken ⊢
    cases bytes with
    | nil => exact taken
    | cons c rest =>
      cases rest with
      | nil => exact (char_bytes c).symm ▸ taken
      | cons => simp at most

/-- fgets gives back what it got before and every character it took; where it
returns NULL there was none. -/
theorem fgetsLoop_taken (kernel : Kernel) (stream : Stream) (left : Nat) (st : State)
    (got : List UInt8) :
    ∃ bytes, Taken st (fgetsLoop kernel stream left st got).1 (st.files stream).fd bytes ∧
      (fgetsLoop kernel stream left st got).2.getD [] = got ++ bytes := by
  induction left generalizing st got with
  | zero => exact ⟨[], .refl st _, (List.append_nil got).symm⟩
  | succ left ih =>
    have taken := fgetc_taken kernel st stream
    rw [fgetsLoop]
    generalize fgetc kernel st stream = character at taken
    obtain ⟨next, c⟩ := character
    simp only [Outcome.bytes] at taken ⊢
    by_cases ended : c = eofMarker
    · rw [if_pos ended] at taken ⊢
      refine ⟨[], taken, ?_⟩
      split
      · next nothing => rw [List.eq_nil_of_length_eq_zero nothing]; rfl
      · exact (List.append_nil got).symm
    · rw [if_neg ended] at taken ⊢
      split
      · exact ⟨_, taken, rfl⟩
      · obtain ⟨bytes, more, line⟩ := ih next (got ++ [UInt8.ofInt c])
        rw [taken.fds] at more
        exact ⟨_, taken.trans more, by rw [line, List.append_assoc]⟩

def InputCall.descriptor (st : State) (call : InputCall) : Int := (st.files call.stream).fd

theorem InputCall.run_taken (kernel : Kernel) (keyboard : (st.files .stdin).fd = 0)
    (call : InputCall) :
    Taken st (call.run kernel st).1 (call.descriptor st) (call.run kernel st).2.bytes := by
  cases call with
  | fread size nmemb stream => exact fread_taken kernel st size.toNat nmemb.toNat stream
  | fgetc stream => exact fgetc_taken kernel st stream
  | fgets size stream =>
    simp only [InputCall.run, Stdio.fgets]
    split
    · exact .refl st _
    · obtain ⟨bytes, taken, line⟩ := fgetsLoop_taken kernel stream (size - 1).toNat st []
      rw [Outcome.bytes, line]
      exact taken
  | getchar =>
    have own : InputCall.getchar.descriptor st = 0 := keyboard
    rw [own]
    exact getchar_taken kernel st

/-! ## The output calls -/

/-- Whatever the kernel answers, it takes the bytes offered in order, each at
most once. -/
theorem calls_sublist (kernel : Kernel) (fd : Int) (k : Nat) (bs : List (List UInt8)) :
    ((kernel.calls fd k bs).flatMap WriteCall.accepted).Sublist bs.flatten := by
  induction bs generalizing k with
  | nil => exact .slnil
  | cons b rest ih =>
    rw [Kernel.calls, List.flatMap_cons, List.flatten_cons]
    exact (List.take_sublist _ b).append (ih (k + 1))

theorem acceptedOn_other {d : Int} (other : fd ≠ d) (k : Nat) (bs : List (List UInt8)) :
    acceptedOn d (kernel.calls fd k bs) = [] := by
  induction bs generalizing k with
  | nil => rfl
  | cons b rest ih =>
    rw [Kernel.calls, acceptedOn, List.filter_cons_of_neg (by simpa using other)]
    exact ih (k + 1)

theorem Sent.accepted_on {offered : List (List UInt8)} (sent : Sent kernel st st' fd offered)
    (d : Int) :
    acceptedOn d st'.writes = acceptedOn d st.writes ++
      if fd = d then (kernel.calls fd st.writes.length offered).flatMap WriteCall.accepted
      else [] := by
  split
  · next same => rw [← same, sent.accepted]
  · next other => rw [sent.writes, acceptedOn_append, acceptedOn_other other]

/-! ## Between two calls -/

/-- outbuf is empty, and the standard streams have their descriptors. -/
structure Ready (st : State) : Prop where
  idle : st.outlen = 0
  stdout : (st.files .stdout).fd = 1
  stdin : (st.files .stdin).fd = 0

theorem Started.ready (start : Started st) : Ready st := by
  obtain ⟨idle, stdin, stdout, -⟩ := start
  exact ⟨idle, by rw [stdout], by rw [stdin]⟩

theorem IoCall.run_ready (ready : Ready st) {call : IoCall} (ok : call.allowed)
    (ret : call.run kernel st = some st') : Ready st' := by
  cases call with
  | input call =>
    cases ret
    have taken := call.run_taken kernel ready.stdin
    exact ⟨taken.outlen.trans ready.idle, (taken.fds _).trans ready.stdout,
      (taken.fds _).trans ready.stdin⟩
  | output call =>
    obtain ⟨next, returned, sent, flagged⟩ := call.run_sent kernel ready.idle ready.stdout ok
    cases returned.symm.trans ret
    exact ⟨sent.idle, (flagged.fds _).trans ready.stdout, (flagged.fds _).trans ready.stdin⟩

/-- Every allowed call returns. -/
theorem IoCall.run_total (ready : Ready st) {call : IoCall} (ok : call.allowed) :
    ∃ st', call.run kernel st = some st' := by
  cases call with
  | input call => exact ⟨_, rfl⟩
  | output call =>
    obtain ⟨next, returned, -⟩ := call.run_sent kernel ready.idle ready.stdout ok
    exact ⟨next, returned⟩

theorem ioCalls_ready (reach : Reachable (ioCalls kernel) st) : Ready st :=
  reach.invariant (fun _ start => Started.ready start)
    (fun _ _ _ ready ok ret => IoCall.run_ready ready ok ret)

end AxiomeToolchain.Source.Stdio
