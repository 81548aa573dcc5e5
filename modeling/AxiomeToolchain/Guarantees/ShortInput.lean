import AxiomeToolchain.Source.StdioInput

/-!
# When short input goes unexplained

A short result (fewer elements than asked, EOF, NULL) is explained when feof or
ferror of the stream is set after the call. fread sets no flag for a count below
the request, getchar never sets one, and fgets returns NULL without reading when
its size is not positive; fgetc is always explained.
-/

set_option autoImplicit false

namespace AxiomeToolchain.Guarantees.ShortInput
open AxiomeToolchain.Library.CInt
open AxiomeToolchain.Library.Runs
open AxiomeToolchain.Source.Stdio

/-- Fewer elements than asked, or an end of input reported. -/
def Short : InputCall → Outcome → Prop
  | .fread _ nmemb _, .count n _ => n < nmemb.toNat
  | .fgetc _, .char c => c = eofMarker
  | .getchar, .char c => c = eofMarker
  | .fgets _ _, .line s => s = none
  | _, _ => False

/-- The bytes of every element counted were stored, as a mathematical product. -/
def Complete : InputCall → Outcome → Prop
  | .fread size _ _, .count n stored => n * size.toNat ≤ stored.length
  | _, _ => True

def Explained (kernel : Kernel) (st : State) (call : InputCall) : Prop :=
  (Short call (call.run kernel st).2 → Marked (call.run kernel st).1 call.stream) ∧
    Complete call (call.run kernel st).2

/-- A flag was set before, or the kernel's answer leaves nothing to explain. -/
def Explainable (kernel : Kernel) (st : State) (call : InputCall) : Prop :=
  Marked st call.stream ∨
    match call with
    | .fread size nmemb stream =>
      ∀ bytes,
        kernel.read st.reads.length (st.files stream).fd (u64Mul size.toNat nmemb.toNat) = some bytes →
          bytes = [] ∨ bytes.length = size.toNat * nmemb.toNat
    | .fgetc _ => True
    | .fgets size _ => 0 < size
    | .getchar => ∃ bytes, kernel.read st.reads.length 0 1 = some bytes ∧ bytes ≠ []

variable {kernel : Kernel} {st st' : State} {stream : Stream} {steps : List (Step State InputCall)}

theorem fread_explained (size nmemb : BitVec 64) (ok : (InputCall.fread size nmemb stream).allowed) :
    Explained kernel st (.fread size nmemb stream) ↔
      Explainable kernel st (.fread size nmemb stream) := by
  obtain ⟨nonnull, size_pos, nmemb_pos⟩ := ok
  simp only [Explained, Explainable, InputCall.run, InputCall.stream, Short, Complete]
  cases answer : kernel.read st.reads.length (st.files stream).fd
      (u64Mul size.toNat nmemb.toNat) with
  | none =>
    obtain ⟨result, marked⟩ := fread_failed nonnull size_pos nmemb_pos answer
    simp [result, marked]
  | some bytes =>
    by_cases ended : bytes = []
    · subst ended
      obtain ⟨result, marked⟩ := fread_ended nonnull size_pos nmemb_pos answer
      simp [result, marked]
    · obtain ⟨result, marked⟩ := fread_delivered nonnull size_pos nmemb_pos ended answer
      have asked : bytes.length ≤ size.toNat * nmemb.toNat :=
        Nat.le_trans (kernel.read_count answer) (Nat.mod_le _ _)
      have short : bytes.length / size.toNat < nmemb.toNat ↔
          ¬ bytes.length = size.toNat * nmemb.toNat := by
        rw [Nat.div_lt_iff_lt_mul size_pos, Nat.mul_comm nmemb.toNat]
        omega
      simp only [result, marked, short, Nat.div_mul_le_self, and_true, Option.some.injEq,
        forall_eq', ended, false_or]
      tauto

theorem fgets_explained (size : Int) (ok : (InputCall.fgets size stream).allowed) :
    Explained kernel st (.fgets size stream) ↔ Explainable kernel st (.fgets size stream) := by
  simp only [Explained, Explainable, InputCall.run, InputCall.stream, Short, Complete, and_true, fgets]
  split
  · next small =>
    have not_positive : ¬ 0 < size := by omega
    simp [not_positive]
  · next large =>
    have positive : 0 < size := by omega
    have marked : (fgetsLoop kernel stream (size - 1).toNat st []).2 = none → _ :=
      fgetsLoop_marked ok (size - 1).toNat st []
    simp only [positive, or_true, iff_true]
    exact marked

theorem getchar_explained : Explained kernel st .getchar ↔ Explainable kernel st .getchar := by
  have marked : Marked (getchar kernel st).1 .stdin ↔ Marked st .stdin := by
    simp only [Marked, feof, ferror, getchar_files]
  simp only [Explained, Explainable, InputCall.run, InputCall.stream, Short, Complete, and_true, marked]
  cases answer : kernel.read st.reads.length 0 1 with
  | none => simp [getchar_ended kernel st (by simp [answer])]
  | some bytes =>
    cases bytes with
    | nil => simp [getchar_ended kernel st (by simp [answer])]
    | cons c rest =>
      have not_eof : ¬ (c.toNat : Int) = eofMarker := by unfold eofMarker; omega
      simp [getchar_delivered answer, not_eof]

/-- The step lemma: exactly the explainable calls are explained. -/
theorem explained_iff {call : InputCall} (ok : call.allowed) :
    Explained kernel st call ↔ Explainable kernel st call := by
  cases call with
  | fread size nmemb stream => exact fread_explained size nmemb ok
  | fgetc stream =>
    have marked : (fgetc kernel st stream).2 = eofMarker → _ := fgetc_marked ok
    simp only [Explained, Explainable, InputCall.run, InputCall.stream, Short, Complete, and_true,
      or_true, iff_true]
    exact marked
  | fgets size stream => exact fgets_explained size ok
  | getchar => exact getchar_explained

/-- In every run of input calls, each call is explained exactly if it is explainable. -/
theorem short_input_iff (kernel : Kernel) (st st' : State) (start : Started st)
    (steps : List (Step State InputCall)) (run : Run (inputCalls kernel) st steps st') :
    ∀ step ∈ steps,
      Explained kernel step.before step.call ↔ Explainable kernel step.before step.call :=
  fun step member => explained_iff (run.steps_valid start step member).2.1

/-- A terminal that delivers a character a time. -/
def terminalKernel : Kernel :=
  { willingKernel with
    read := fun _ _ len => some (List.replicate (min 1 len) 97)
    read_count := fun answer => by
      cases answer
      simp only [List.length_replicate]
      omega }

/-- fread of two characters gets one, and getchar meets the end of input, with no flag set. -/
theorem short_input_unexplained :
    ((InputCall.fread 1 2 .stdin).run terminalKernel exampleStreams).2 = .count 1 [97] ∧
      ¬ Explained terminalKernel exampleStreams (.fread 1 2 .stdin) ∧
      (InputCall.getchar.run willingKernel exampleStreams).2 = .char eofMarker ∧
      ¬ Explained willingKernel exampleStreams .getchar := by
  refine ⟨by decide, ?_, by decide, ?_⟩
  · intro explained
    exact absurd (explained.1 (by decide : 1 < 2)) (by simp [Marked, feof, ferror]; decide)
  · intro explained
    exact absurd (explained.1 rfl) (by simp [Marked, feof, ferror]; decide)

/-- On the terminal fgetc and an fread of one character are explained, an fread of two is not. -/
theorem short_input_iff_terminal : ∃ s₁ s₂ : State,
    Explained terminalKernel exampleStreams (.fgetc .stdin) ∧
    s₁ = ((InputCall.fgetc .stdin).run terminalKernel exampleStreams).1 ∧
    Explained terminalKernel s₁ (.fread 1 1 .stdin) ∧
    s₂ = ((InputCall.fread 1 1 .stdin).run terminalKernel s₁).1 ∧
    ¬ Explained terminalKernel s₂ (.fread 1 2 .stdin) := by
  have before : Run (inputCalls terminalKernel) exampleStreams [] exampleStreams := .nil _
  have first (st : State) : (inputCalls terminalKernel).allowed st (.fgetc .stdin) :=
    Stream.noConfusion
  have more (st : State) (n : BitVec 64) (some_members : 0 < n.toNat) :
      (inputCalls terminalKernel).allowed st (.fread 1 n .stdin) :=
    ⟨Stream.noConfusion, by decide, some_members⟩
  have run := ((before.snoc (first _) rfl).snoc (more _ 1 (by decide)) rfl).snoc
    (more _ 2 (by decide)) rfl
  have each := short_input_iff terminalKernel exampleStreams _ exampleStreams_started _ run
  refine ⟨_, _, (each _ (.head _)).mpr (.inr trivial), rfl,
    (each _ (.tail _ (.head _))).mpr (.inr ?_), rfl, fun explained => ?_⟩
  · rintro bytes answer
    cases answer
    exact .inr rfl
  · rcases (each _ (.tail _ (.tail _ (.head _)))).mp explained with marked | answered
    · exact absurd marked (by simp [Marked, feof, ferror]; decide)
    · exact absurd (answered [97] rfl) (by decide)

end AxiomeToolchain.Guarantees.ShortInput
