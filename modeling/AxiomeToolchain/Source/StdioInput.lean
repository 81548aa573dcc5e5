import AxiomeToolchain.Source.StdioCalls

/-!
# Runs of the input calls

fread, fgetc, fgets and getchar over a kernel that may deliver fewer bytes than
asked, none at end of file, or fail. fread is the only one that sets the flags
of a stream; fgetc and fgets go through it, getchar does not.
-/

set_option autoImplicit false

namespace AxiomeToolchain.Source.Stdio
open AxiomeToolchain.Library.CInt
open AxiomeToolchain.Library.Runs

inductive InputCall where
  | fread (size nmemb : BitVec 64) (stream : Stream)
  | fgetc (stream : Stream)
  | fgets (size : Int) (stream : Stream)
  | getchar

/-- What the caller gets: fread's count with the bytes stored, a character, or a
string (`none` is NULL). -/
inductive Outcome where
  | count (n : Nat) (stored : List UInt8)
  | char (c : Int)
  | line (s : Option (List UInt8))
  deriving DecidableEq

def InputCall.stream : InputCall → Stream
  | .fread _ _ stream | .fgetc stream | .fgets _ stream => stream
  | .getchar => .stdin

/-- An open stream, and for fread sizes that are not 0. -/
def InputCall.allowed : InputCall → Prop
  | .fread size nmemb stream => stream ≠ .null ∧ 0 < size.toNat ∧ 0 < nmemb.toNat
  | .fgetc stream | .fgets _ stream => stream ≠ .null
  | .getchar => True

def InputCall.run (kernel : Kernel) (st : State) : InputCall → State × Outcome
  | .fread size nmemb stream =>
    let (st, n, stored) := Stdio.fread kernel st true size.toNat nmemb.toNat stream
    (st, .count n stored)
  | .fgetc stream =>
    let (st, c) := Stdio.fgetc kernel st stream
    (st, .char c)
  | .fgets size stream =>
    let (st, s) := Stdio.fgets kernel st size stream
    (st, .line s)
  | .getchar =>
    let (st, c) := Stdio.getchar kernel st
    (st, .char c)

def inputCalls (kernel : Kernel) : System State InputCall where
  initial := Started
  allowed _ call := call.allowed
  step st call := some (call.run kernel st).1

/-- feof or ferror is set. -/
def Marked (st : State) (stream : Stream) : Prop := feof st stream ≠ 0 ∨ ferror st stream ≠ 0

variable {kernel : Kernel} {st : State} {stream : Stream} {size nmemb : Nat} {bytes : List UInt8}

theorem marked_iff (nonnull : stream ≠ .null) :
    Marked st stream ↔ (st.files stream).eof ≠ 0 ∨ (st.files stream).err ≠ 0 := by
  simp only [Marked, feof, ferror, if_neg nonnull]

theorem setErr_marked (nonnull : stream ≠ .null) : Marked (setErr st stream) stream := by
  rw [marked_iff nonnull]
  simp [setErr]

theorem setEof_marked (nonnull : stream ≠ .null) : Marked (setEof st stream) stream := by
  rw [marked_iff nonnull]
  simp [setEof]

/-! ## fread, by the answer of the kernel -/

section Fread
variable (nonnull : stream ≠ .null) (size_pos : 0 < size) (nmemb_pos : 0 < nmemb)
include nonnull size_pos nmemb_pos

theorem fread_eq :
    fread kernel st true size nmemb stream =
      match read kernel st (st.files stream).fd (u64Mul size nmemb) with
      | (st, none) => (setErr st stream, 0, [])
      | (st, some bytes) =>
        (if bytes.length = 0 then setEof st stream else st, bytes.length / size, bytes) := by
  have some_size : size ≠ 0 := by omega
  have some_members : nmemb ≠ 0 := by omega
  exact if_neg (by simp only [nonnull, some_size, some_members, Bool.true_eq_false, or_self,
    not_false_eq_true])

theorem fread_failed
    (answer : kernel.read st.reads.length (st.files stream).fd (u64Mul size nmemb) = none) :
    (fread kernel st true size nmemb stream).2 = (0, []) ∧
      Marked (fread kernel st true size nmemb stream).1 stream := by
  rw [fread_eq nonnull size_pos nmemb_pos]
  simp only [read, answer]
  exact ⟨trivial, setErr_marked nonnull⟩

theorem fread_ended
    (answer : kernel.read st.reads.length (st.files stream).fd (u64Mul size nmemb) = some []) :
    (fread kernel st true size nmemb stream).2 = (0, []) ∧
      Marked (fread kernel st true size nmemb stream).1 stream := by
  rw [fread_eq nonnull size_pos nmemb_pos]
  simp only [read, answer, List.length_nil, if_true, Nat.zero_div]
  exact ⟨trivial, setEof_marked nonnull⟩

theorem fread_delivered (some_bytes : bytes ≠ [])
    (answer : kernel.read st.reads.length (st.files stream).fd (u64Mul size nmemb) = some bytes) :
    (fread kernel st true size nmemb stream).2 = (bytes.length / size, bytes) ∧
      (Marked (fread kernel st true size nmemb stream).1 stream ↔ Marked st stream) := by
  have positive := List.length_pos_of_ne_nil some_bytes
  have nonempty : ¬ bytes.length = 0 := by omega
  rw [fread_eq nonnull size_pos nmemb_pos]
  simp only [read, answer, if_neg nonempty, true_and]
  exact Iff.rfl

end Fread

/-! ## The calls built on it -/

theorem fgetc_state (kernel : Kernel) (st : State) (stream : Stream) :
    (fgetc kernel st stream).1 = (fread kernel st true 1 1 stream).1 := by
  unfold fgetc
  split
  · next found => rw [found]
  · next _ found => rw [found]

/-- fgetc reports EOF only with a flag set. -/
theorem fgetc_marked (nonnull : stream ≠ .null) (ended : (fgetc kernel st stream).2 = eofMarker) :
    Marked (fgetc kernel st stream).1 stream := by
  have one : (0 : Nat) < 1 := by decide
  rw [fgetc_state]
  cases answer : kernel.read st.reads.length (st.files stream).fd (u64Mul 1 1) with
  | none => exact (fread_failed nonnull one one answer).2
  | some bytes =>
    have bound := kernel.read_count answer
    match bytes with
    | [] => exact (fread_ended nonnull one one answer).2
    | [c] =>
      -- One byte was read, so fgetc returned it.
      have result := (fread_delivered nonnull one one (List.cons_ne_nil c []) answer).1
      rw [Nat.div_one, List.length_singleton] at result
      have returned : (fgetc kernel st stream).2 = c.toNat := by
        unfold fgetc
        generalize fread kernel st true 1 1 stream = out at result
        obtain ⟨after, n, stored⟩ := out
        cases result
        rfl
      rw [returned, eofMarker] at ended
      omega
    | _ :: _ :: _ => simp [u64Mul, wordModulus] at bound

/-- fgets returns NULL after its first character only with a flag set. -/
theorem fgetsLoop_marked (nonnull : stream ≠ .null) (left : Nat) (st : State) (got : List UInt8)
    (ended : (fgetsLoop kernel stream left st got).2 = none) :
    Marked (fgetsLoop kernel stream left st got).1 stream := by
  induction left generalizing st got with
  | zero => simp [fgetsLoop] at ended
  | succ left ih =>
    have character : (fgetc kernel st stream).2 = eofMarker → _ := fgetc_marked nonnull
    rw [fgetsLoop] at ended ⊢
    generalize fgetc kernel st stream = read_one at character ended ⊢
    obtain ⟨after, c⟩ := read_one
    simp only at character ended ⊢
    split at ended
    · next isEof =>
      rw [if_pos isEof]
      exact character isEof
    · next more =>
      rw [if_neg more]
      split at ended
      · simp at ended
      · next no_newline =>
        rw [if_neg no_newline]
        exact ih _ _ ended

/-! ## getchar, by the answer of the kernel -/

theorem getchar_files (kernel : Kernel) (st : State) : (getchar kernel st).1.files = st.files := by
  unfold getchar
  split
  · next found => exact (congrArg (fun out => out.1.files) found).symm
  · next found => exact (congrArg (fun out => out.1.files) found).symm

theorem getchar_delivered {c : UInt8} {rest : List UInt8}
    (answer : kernel.read st.reads.length 0 1 = some (c :: rest)) :
    (getchar kernel st).2 = c.toNat := by
  simp [getchar, read, answer]

theorem getchar_ended (kernel : Kernel) (st : State)
    (answer : ∀ c rest, kernel.read st.reads.length 0 1 ≠ some (c :: rest)) :
    (getchar kernel st).2 = eofMarker := by
  unfold getchar
  split
  · next found =>
    exact absurd (congrArg Prod.snd found) (answer _ _)
  · rfl

end AxiomeToolchain.Source.Stdio
