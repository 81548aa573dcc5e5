import AxiomeToolchain.Source.StdioOutput

/-!
# Runs of the output calls

One state machine for printf, vprintf, puts, putchar, fputs, fputc and fwrite.
`run_sent` is the step lemma: between calls outbuf is empty, and a call makes
the write calls for the buffers it offers. Only fputs, fputc and fwrite look at
what the kernel answers, and only at a failure.
-/

set_option autoImplicit false

namespace AxiomeToolchain.Source.Stdio
open AxiomeToolchain.Library.CInt
open AxiomeToolchain.Library.Sink
open AxiomeToolchain.Library.Runs
open AxiomeToolchain.Source.Format

/-- The array a caller passes to fwrite. -/
structure Object where
  bytes : List UInt8
  fits : bytes.length < wordModulus

inductive OutputCall where
  | vprintf (fmt : CString) (ap : VaList)
  | printf (fmt : CString) (args : List VaArg)
  | puts (s : CString)
  | putchar (c : Int)
  | fputs (s : CString) (stream : Stream)
  | fputc (c : Int) (stream : Stream)
  | fwrite (object : Object) (size nmemb : BitVec 64) (stream : Stream)

/-- The bytes vprintf emits for a format and its arguments. -/
def printed (fmt : CString) (ap : VaList) : List UInt8 :=
  ((items (pieces fmt) ap).map (fun found => found.1.flatMap Item.stdoutText)).getD []

def OutputCall.stream : OutputCall → Stream
  | .vprintf _ _ | .printf _ _ | .puts _ | .putchar _ => .stdout
  | .fputs _ stream | .fputc _ stream | .fwrite _ _ _ stream => stream

def OutputCall.output : OutputCall → List UInt8
  | .vprintf fmt ap => printed fmt ap
  | .printf fmt args => printed fmt ⟨args, []⟩
  | .puts s => s.bytes ++ [10]
  | .putchar c | .fputc c _ => [UInt8.ofInt c]
  | .fputs s _ => s.bytes
  | .fwrite object size nmemb _ => object.bytes.take (size.toNat * nmemb.toNat)

/-- fputs, fputc and fwrite test the result of their write for a failure. -/
def OutputCall.checked : OutputCall → Bool
  | .vprintf _ _ | .printf _ _ | .puts _ | .putchar _ => false
  | .fputs _ _ | .fputc _ _ | .fwrite _ _ _ _ => true

/-- The buffers the call passes to write, a function of its output alone. -/
def OutputCall.offers (call : OutputCall) : List (List UInt8) :=
  match call with
  | .vprintf _ _ | .printf _ _ | .puts _ => buffers call.output
  | .putchar _ | .fputs _ _ | .fputc _ _ | .fwrite _ _ _ _ => flushed call.output

/-- Enough arguments for the format, an open stream, an array as long as the call says. -/
def OutputCall.allowed : OutputCall → Prop
  | .vprintf fmt ap => (items (pieces fmt) ap).isSome
  | .printf fmt args => (items (pieces fmt) ⟨args, []⟩).isSome
  | .puts _ | .putchar _ => True
  | .fputs _ stream | .fputc _ stream => stream ≠ .null
  | .fwrite object size nmemb stream =>
    stream ≠ .null ∧ size.toNat * nmemb.toNat ≤ object.bytes.length

def OutputCall.run (kernel : Kernel) (st : State) : OutputCall → Option State
  | .vprintf fmt ap => (Format.vprintf kernel st fmt ap).map (fun r => r.1)
  | .printf fmt args => (Format.printf kernel st fmt args).map (fun r => r.1)
  | .puts s => (Stdio.puts kernel st s).map Prod.fst
  | .putchar c => some (Stdio.putchar kernel st c).1
  | .fputs s stream => (Stdio.fputs kernel st s stream).map Prod.fst
  | .fputc c stream => (Stdio.fputc kernel st c stream).map Prod.fst
  | .fwrite object size nmemb stream =>
    (Stdio.fwrite kernel st (some object.bytes) size.toNat nmemb.toNat stream).map Prod.fst

/-- The static state before the first call; other streams may be any. -/
def Started (st : State) : Prop :=
  st.outlen = 0 ∧ st.files .stdin = ⟨0, 0, 0⟩ ∧ st.files .stdout = ⟨1, 0, 0⟩ ∧
    st.files .stderr = ⟨2, 0, 0⟩ ∧ st.writes = [] ∧ st.reads = []

def outputCalls (kernel : Kernel) (accept : OutputCall → Prop) : System State OutputCall where
  initial := Started
  allowed _ call := call.allowed ∧ accept call
  step st call := call.run kernel st

variable {kernel : Kernel} {st st' : State} {call : OutputCall} {stream : Stream}
  {accept : OutputCall → Prop}

/-- The first write of a call fails. -/
def OutputCall.fails (kernel : Kernel) (st : State) (call : OutputCall) : Prop :=
  ∃ b ∈ call.offers, kernel.write st.writes.length (st.files call.stream).fd b.length = none

/-- What an output call does to the streams. -/
structure Flagged (st st' : State) (stream : Stream) (failure : Prop) : Prop where
  fds : ∀ s, (st'.files s).fd = (st.files s).fd
  err_set : failure → (st'.files stream).err = 1
  err_kept : ¬ failure → (st'.files stream).err = (st.files stream).err

theorem Flagged.same (files : st'.files = st.files) {failure : Prop} (never : ¬ failure) :
    Flagged st st' stream failure where
  fds s := by rw [files]
  err_set failed := absurd failed never
  err_kept _ := by rw [files]

theorem fwrite_eq (kernel : Kernel) (st : State) (bytes : List UInt8)
    (fits : bytes.length < wordModulus) (size nmemb : Nat) (nonnull : stream ≠ .null)
    (whole : size * nmemb ≤ bytes.length) (nothing : ¬ (size = 0 ∨ nmemb = 0)) :
    fwrite kernel st (some bytes) size nmemb stream =
      match write kernel st (st.files stream).fd (bytes.take (size * nmemb)) with
      | (st, none) => some (setErr st stream, 0)
      | (st, some n) => some (st, n / size) := by
  have product : u64Mul size nmemb = size * nmemb := u64Mul_of_lt (Nat.lt_of_le_of_lt whole fits)
  rw [← product]
  refine (if_neg ?_).trans (if_pos ?_)
  · simp only [nonnull, nothing, or_self, not_false_eq_true]
  · rw [product]
    exact whole

theorem fwrite_sent (kernel : Kernel) (idle : st.outlen = 0) (bytes : List UInt8)
    (fits : bytes.length < wordModulus) (size nmemb : Nat) (nonnull : stream ≠ .null)
    (whole : size * nmemb ≤ bytes.length) :
    ∃ st' n, fwrite kernel st (some bytes) size nmemb stream = some (st', n) ∧
      Sent kernel st st' (st.files stream).fd (flushed (bytes.take (size * nmemb))) ∧
      Flagged st st' stream (∃ b ∈ flushed (bytes.take (size * nmemb)),
        kernel.write st.writes.length (st.files stream).fd b.length = none) := by
  by_cases nothing : size = 0 ∨ nmemb = 0
  · have zero : size * nmemb = 0 := Nat.mul_eq_zero.mpr nothing
    refine ⟨st, 0, ?_, ?_, ?_⟩
    · simp only [fwrite, nonnull, nothing, or_true, if_true]
    · rw [zero]
      exact ⟨idle, (List.append_nil _).symm, rfl⟩
    · rw [zero]
      exact Flagged.same rfl (by simp [flushed])
  · have positive : 0 < (bytes.take (size * nmemb)).length := by
      rw [List.length_take, Nat.min_eq_left whole]
      exact Nat.pos_of_ne_zero (fun zero => nothing (Nat.mul_eq_zero.mp zero))
    have offered : flushed (bytes.take (size * nmemb)) = [bytes.take (size * nmemb)] := if_pos positive
    rw [fwrite_eq kernel st bytes fits size nmemb nonnull whole nothing, offered]
    simp only [List.mem_singleton, exists_eq_left]
    generalize bytes.take (size * nmemb) = buffer
    cases answer : kernel.write st.writes.length (st.files stream).fd buffer.length with
    | none =>
      refine ⟨setErr (write kernel st (st.files stream).fd buffer).1 stream, 0, ?_, ?_, ?_⟩
      · simp only [write, answer]
      · exact ⟨idle, rfl, rfl⟩
      · refine ⟨fun s => ?_, fun _ => ?_, fun kept => absurd rfl kept⟩
        · simp only [setErr, write, Function.update_apply]
          split
          · next same => rw [same]
          · rfl
        · simp only [setErr, Function.update_self]
    | some n =>
      refine ⟨(write kernel st (st.files stream).fd buffer).1, n / size, ?_, ⟨idle, rfl, rfl⟩, ?_⟩
      · simp only [write, answer]
      · have files : (write kernel st (st.files stream).fd buffer).1.files = st.files := rfl
        exact Flagged.same files (by simp)

theorem printed_eq {fmt : CString} {ap ap' : VaList} {its : List Item}
    (found : items (pieces fmt) ap = some (its, ap')) :
    printed fmt ap = its.flatMap Item.stdoutText := by
  simp [printed, found]

theorem vprintf_sent (kernel : Kernel) (idle : st.outlen = 0) {fmt : CString} {ap ap' : VaList}
    {its : List Item} (found : items (pieces fmt) ap = some (its, ap')) :
    ∃ st', Format.vprintf kernel st fmt ap = some (st', ap', 0) ∧
      Sent kernel st st' 1 (buffers (printed fmt ap)) ∧ st'.files = st.files := by
  obtain ⟨last, run, sent, files⟩ := putAll_flush_sent kernel idle (its.flatMap Item.stdoutText)
  refine ⟨flush kernel last, ?_, (printed_eq found).symm ▸ sent, files⟩
  simp only [Format.vprintf, vprintf_items, found, Option.bind_some, run, Option.map_some]

theorem puts_sent (kernel : Kernel) (idle : st.outlen = 0) (s : CString) :
    ∃ st', Stdio.puts kernel st s = some (st', 0) ∧ Sent kernel st st' 1 (buffers (s.bytes ++ [10])) ∧
      st'.files = st.files := by
  obtain ⟨last, run, sent, files⟩ := putAll_flush_sent kernel idle (s.bytes ++ [10])
  refine ⟨flush kernel last, ?_, sent, files⟩
  rw [putAll_append] at run
  obtain ⟨middle, body, newline⟩ := Option.bind_eq_some_iff.mp run
  rw [putAll_singleton] at newline
  rw [Stdio.puts, emitStr, body, Option.bind_some, newline]
  rfl

/-- Every allowed call returns, makes the writes for its offers and leaves outbuf empty. -/
theorem OutputCall.run_sent (kernel : Kernel) (idle : st.outlen = 0)
    (descriptor : (st.files .stdout).fd = 1) (ok : call.allowed) :
    ∃ st', call.run kernel st = some st' ∧
      Sent kernel st st' (st.files call.stream).fd call.offers ∧
      Flagged st st' call.stream (call.checked = true ∧ call.fails kernel st) := by
  have unchecked {st' : State} (files : st'.files = st.files) {failure : Prop} :
      Flagged st st' .stdout (false = true ∧ failure) := Flagged.same files (by simp)
  cases call with
  | vprintf fmt ap =>
    obtain ⟨⟨its, ap'⟩, found⟩ := Option.isSome_iff_exists.mp ok
    obtain ⟨st', run, sent, files⟩ := vprintf_sent kernel idle found
    exact ⟨st', by rw [OutputCall.run, run]; rfl, descriptor ▸ sent, unchecked files⟩
  | printf fmt args =>
    obtain ⟨⟨its, ap'⟩, found⟩ := Option.isSome_iff_exists.mp ok
    obtain ⟨st', run, sent, files⟩ := vprintf_sent kernel idle found
    exact ⟨st', by rw [OutputCall.run, Format.printf, run]; rfl, descriptor ▸ sent, unchecked files⟩
  | puts s =>
    obtain ⟨st', run, sent, files⟩ := puts_sent kernel idle s
    exact ⟨st', by rw [OutputCall.run, run]; rfl, descriptor ▸ sent, unchecked files⟩
  | putchar c =>
    refine ⟨_, rfl, ?_, ?_⟩
    · rw [OutputCall.stream, descriptor]
      exact ⟨idle, rfl, rfl⟩
    · have files : (Stdio.putchar kernel st c).1.files = st.files := rfl
      exact unchecked files
  | fputs s stream =>
    obtain ⟨st', n, run, sent, flagged⟩ := fwrite_sent kernel idle s.bytes s.fits 1 s.bytes.length ok
      (by omega)
    rw [Nat.one_mul, List.take_length] at sent flagged
    refine ⟨st', by rw [OutputCall.run, Stdio.fputs, run]; rfl, sent, flagged.fds, ?_, ?_⟩
    · exact fun failure => flagged.err_set failure.2
    · exact fun kept => flagged.err_kept (fun failure => kept ⟨rfl, failure⟩)
  | fputc c stream =>
    obtain ⟨st', n, run, sent, flagged⟩ := fwrite_sent kernel idle [UInt8.ofInt c]
      (by simp [wordModulus]) 1 1 ok (by simp)
    refine ⟨st', by rw [OutputCall.run, Stdio.fputc, run]; rfl, sent, flagged.fds, ?_, ?_⟩
    · exact fun failure => flagged.err_set failure.2
    · exact fun kept => flagged.err_kept (fun failure => kept ⟨rfl, failure⟩)
  | fwrite object size nmemb stream =>
    obtain ⟨st', n, run, sent, flagged⟩ := fwrite_sent kernel idle object.bytes object.fits size.toNat
      nmemb.toNat ok.1 ok.2
    refine ⟨st', by rw [OutputCall.run, run]; rfl, sent, flagged.fds, ?_, ?_⟩
    · exact fun failure => flagged.err_set failure.2
    · exact fun kept => flagged.err_kept (fun failure => kept ⟨rfl, failure⟩)

theorem OutputCall.stream_ne_null (ok : call.allowed) : call.stream ≠ .null := by
  cases call with
  | vprintf | printf | puts | putchar => exact Stream.noConfusion
  | fputs | fputc => exact ok
  | fwrite => exact ok.1

/-- Between calls outbuf is empty and stdout has descriptor 1. -/
theorem outputCalls_idle (reach : Reachable (outputCalls kernel accept) st) :
    st.outlen = 0 ∧ (st.files .stdout).fd = 1 := by
  refine reach.invariant (P := fun st => st.outlen = 0 ∧ (st.files .stdout).fd = 1) ?_ ?_
  · exact fun st start => ⟨start.1, by rw [start.2.2.1]⟩
  · rintro st call st' ⟨idle, descriptor⟩ ok ret
    obtain ⟨next, run, sent, flagged⟩ := OutputCall.run_sent kernel idle descriptor ok.1
    have same : next = st' := Option.some.inj (run.symm.trans ret)
    subst same
    exact ⟨sent.idle, (flagged.fds .stdout).trans descriptor⟩

/-! ## What reaches a descriptor -/

/-- The bytes the kernel took on a descriptor, in order. -/
def acceptedOn (fd : Int) (ws : List WriteCall) : List UInt8 :=
  (ws.filter (fun w => w.fd = fd)).flatMap WriteCall.accepted

theorem acceptedOn_append (fd : Int) (ws vs : List WriteCall) :
    acceptedOn fd (ws ++ vs) = acceptedOn fd ws ++ acceptedOn fd vs := by
  simp [acceptedOn]

theorem acceptedOn_calls (fd : Int) (k : Nat) (bs : List (List UInt8)) :
    acceptedOn fd (kernel.calls fd k bs) = (kernel.calls fd k bs).flatMap WriteCall.accepted := by
  have all : ∀ w ∈ kernel.calls fd k bs, w.fd = fd := by
    induction bs generalizing k with
    | nil => simp [Kernel.calls]
    | cons b rest ih =>
      intro w member
      rcases List.mem_cons.mp member with rfl | later
      · rfl
      · exact ih (k + 1) w later
  rw [acceptedOn, List.filter_eq_self.mpr (fun w member => by simpa using all w member)]

theorem calls_bytes (fd : Int) (k : Nat) (bs : List (List UInt8)) :
    (kernel.calls fd k bs).map WriteCall.bytes = bs := by
  induction bs generalizing k with
  | nil => rfl
  | cons b rest ih => rw [Kernel.calls, List.map_cons, ih]

theorem calls_answered (fd : Int) (k : Nat) (bs : List (List UInt8)) :
    ∀ w ∈ kernel.calls fd k bs, ∃ j, w.result = kernel.write j fd w.bytes.length := by
  induction bs generalizing k with
  | nil => simp [Kernel.calls]
  | cons b rest ih =>
    intro w member
    rcases List.mem_cons.mp member with rfl | later
    · exact ⟨k, rfl⟩
    · exact ih (k + 1) w later

theorem offers_flatten (call : OutputCall) : call.offers.flatten = call.output := by
  cases call <;> simp [OutputCall.offers, buffers_flatten, flushed_flatten]

/-- A run that is in order so far and one more call. -/
theorem Sent.accepted {fd : Int} {offered : List (List UInt8)} (sent : Sent kernel st st' fd offered) :
    acceptedOn fd st'.writes =
      acceptedOn fd st.writes ++
        (kernel.calls fd st.writes.length offered).flatMap WriteCall.accepted := by
  rw [sent.writes, acceptedOn_append, acceptedOn_calls]

/-- The static state, with no stream opened. -/
def exampleStreams : State where
  outbuf := Vector.replicate outbufSize 0
  outlen := 0
  files stream :=
    match stream with
    | .stdout => ⟨1, 0, 0⟩
    | .stderr => ⟨2, 0, 0⟩
    | _ => ⟨0, 0, 0⟩
  writes := []
  reads := []

theorem exampleStreams_started : Started exampleStreams := ⟨rfl, rfl, rfl, rfl, rfl, rfl⟩

/-- A kernel that takes every write and has no input. -/
def willingKernel : Kernel where
  write _ _ len := some len
  read _ _ _ := some []
  write_count answer := by
    cases answer
    exact ⟨Nat.le_refl _, fun positive => positive⟩
  read_count answer := by
    cases answer
    exact Nat.zero_le _

end AxiomeToolchain.Source.Stdio
