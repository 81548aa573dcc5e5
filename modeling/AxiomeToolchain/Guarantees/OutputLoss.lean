import AxiomeToolchain.Library.Parts
import AxiomeToolchain.Source.StdioCalls

/-!
# When output is lost silently

A call is lossless when, unless the error flag of its stream is set, the kernel
took every byte of its output once and in order. Only fputs, fputc and fwrite
look at the result of a write, and they only look for a failure: the buffered
calls and putchar drop failures, and every call drops a short count.
-/

set_option autoImplicit false

namespace AxiomeToolchain.Guarantees.OutputLoss
open AxiomeToolchain.Library.Sink
open AxiomeToolchain.Library.Parts
open AxiomeToolchain.Library.Runs
open AxiomeToolchain.Source.Stdio

/-- All the output calls, on any stream. -/
abbrev anyCalls (kernel : Kernel) : System State OutputCall := outputCalls kernel (fun _ => True)

/-- The write calls a step makes. -/
def newWrites (step : Step State OutputCall) : List WriteCall :=
  step.after.writes.drop step.before.writes.length

/-- No byte of the call's output is lost, unless ferror says so. -/
def Lossless (step : Step State OutputCall) : Prop :=
  ferror step.after step.call.stream = 0 →
    acceptedOn (step.before.files step.call.stream).fd (newWrites step) = step.call.output

/-- The kernel answers every buffer the call offers with its full length. -/
def TakenInFull (kernel : Kernel) (st : State) (call : OutputCall) : Prop :=
  ∀ w ∈ kernel.calls (st.files call.stream).fd st.writes.length call.offers,
    w.result = some w.bytes.length

/-- The error flag was set before, or the kernel takes the output in full, or
the call is one that checks and its write fails. -/
def Reported (kernel : Kernel) (st : State) (call : OutputCall) : Prop :=
  ferror st call.stream ≠ 0 ∨ TakenInFull kernel st call ∨
    (call.checked = true ∧ call.fails kernel st)

variable {kernel : Kernel} {st st' : State} {call : OutputCall}
  {steps : List (Step State OutputCall)}

theorem split_nonempty (held bytes : List UInt8) : ∀ b ∈ (split held bytes).1, b ≠ [] := by
  induction bytes generalizing held with
  | nil => simp [split]
  | cons c rest ih =>
    rw [split]
    split
    · intro b member
      rcases List.mem_cons.mp member with rfl | later
      · simp
      · exact ih [] b later
    · exact ih _

theorem flushed_nonempty (held : List UInt8) : ∀ b ∈ flushed held, b ≠ [] := by
  cases held <;> simp [flushed]

theorem offers_nonempty (call : OutputCall) : ∀ b ∈ call.offers, b ≠ [] := by
  have buffered (bytes : List UInt8) : ∀ b ∈ buffers bytes, b ≠ [] := by
    intro b member
    rcases List.mem_append.mp member with handed | last
    · exact split_nonempty _ _ b handed
    · exact flushed_nonempty _ b last
  cases call with
  | vprintf | printf | puts => exact buffered _
  | putchar | fputs | fputc | fwrite => exact flushed_nonempty _

/-- The kernel took a whole nonempty buffer exactly if it said so. -/
theorem accepted_eq_bytes {w : WriteCall} {j : Nat} {fd : Int} (nonempty : w.bytes ≠ [])
    (answer : w.result = kernel.write j fd w.bytes.length) :
    w.accepted = w.bytes ↔ w.result = some w.bytes.length := by
  have positive := List.length_pos_of_ne_nil nonempty
  constructor
  · intro whole
    have length := congrArg List.length whole
    rw [WriteCall.accepted, List.length_take] at length
    cases counted : w.result with
    | none =>
      rw [counted, Option.getD_none] at length
      omega
    | some n =>
      have bound := (kernel.write_count (answer.symm.trans counted)).1
      rw [counted, Option.getD_some] at length
      exact congrArg some (by omega)
  · intro full
    rw [WriteCall.accepted, full, Option.getD_some, List.take_length]

/-- The accepted bytes are the output exactly if every buffer was taken in full. -/
theorem accepted_eq_output (call : OutputCall) (fd : Int) (k : Nat) :
    (kernel.calls fd k call.offers).flatMap WriteCall.accepted = call.output ↔
      ∀ w ∈ kernel.calls fd k call.offers, w.result = some w.bytes.length := by
  have whole : call.output = (kernel.calls fd k call.offers).flatMap WriteCall.bytes := by
    rw [List.flatMap_def, calls_bytes, offers_flatten]
  have shorter : ∀ w ∈ kernel.calls fd k call.offers, w.accepted.length ≤ w.bytes.length :=
    fun w _ => (List.take_sublist _ _).length_le
  rw [whole, flatMap_eq_iff shorter]
  apply forall₂_congr
  intro w member
  obtain ⟨j, answer⟩ := calls_answered fd k call.offers w member
  refine accepted_eq_bytes (offers_nonempty call w.bytes ?_) answer
  have mapped := List.mem_map_of_mem (f := WriteCall.bytes) member
  rwa [calls_bytes] at mapped

/-- The step lemma: a call is lossless exactly if its outcome is reported. -/
theorem lossless_iff (idle : st.outlen = 0) (descriptor : (st.files .stdout).fd = 1)
    (ok : call.allowed) (ret : call.run kernel st = some st') :
    Lossless ⟨st, call, st'⟩ ↔ Reported kernel st call := by
  obtain ⟨next, run, sent, flagged⟩ := OutputCall.run_sent kernel idle descriptor ok
  cases run.symm.trans ret
  have writes : newWrites ⟨st, call, st'⟩ =
      kernel.calls (st.files call.stream).fd st.writes.length call.offers := by
    simp only [newWrites, sent.writes, List.drop_left]
  have accepted : acceptedOn (st.files call.stream).fd (newWrites ⟨st, call, st'⟩) = call.output ↔
      TakenInFull kernel st call := by
    rw [writes, acceptedOn_calls]
    exact accepted_eq_output call _ _
  have nonnull : call.stream ≠ .null := call.stream_ne_null ok
  simp only [Lossless, Reported, accepted, ferror, if_neg nonnull]
  by_cases failure : call.checked = true ∧ call.fails kernel st
  · rw [flagged.err_set failure]
    simp [failure]
  · rw [flagged.err_kept failure]
    tauto

/-- In every run of output calls, each call is lossless exactly if its outcome is reported. -/
theorem lossless_run_iff (kernel : Kernel) (st st' : State) (start : Started st)
    (steps : List (Step State OutputCall)) (run : Run (anyCalls kernel) st steps st') :
    ∀ step ∈ steps, Lossless step ↔ Reported kernel step.before step.call := by
  intro step member
  obtain ⟨reach, ok, ret⟩ := run.steps_valid start step member
  obtain ⟨idle, descriptor⟩ := outputCalls_idle reach
  exact lossless_iff idle descriptor ok.1 ret

/-- A kernel that takes one byte of each write, as a full pipe may. -/
def reluctantKernel : Kernel :=
  { willingKernel with
    write := fun _ _ len => some (min 1 len)
    write_count := fun answer => by
      cases answer
      omega }

def greeting : CString := ⟨ascii "hi", by decide, by decide⟩

/-- puts("hi") returns with ferror(stdout) = 0, and one of its three bytes was taken. -/
theorem puts_loses_output : ∃ st', Run (anyCalls reluctantKernel) exampleStreams
      [⟨exampleStreams, .puts greeting, st'⟩] st' ∧
    ferror st' .stdout = 0 ∧ acceptedOn 1 st'.writes = ascii "h" ∧
    ¬ Lossless ⟨exampleStreams, .puts greeting, st'⟩ := by
  have before : Run (anyCalls reluctantKernel) exampleStreams [] exampleStreams := .nil _
  have ok : (anyCalls reluctantKernel).allowed exampleStreams (.puts greeting) := ⟨trivial, trivial⟩
  refine ⟨_, before.snoc ok rfl, rfl, rfl, fun lossless => ?_⟩
  exact absurd (lossless rfl) (by decide)

/-- On that kernel putchar is lossless and puts after it is not. -/
theorem lossless_run_iff_putchar_puts : ∃ s₁ s₂ : State,
    (OutputCall.putchar 65).run reluctantKernel exampleStreams = some s₁ ∧
    (OutputCall.puts greeting).run reluctantKernel s₁ = some s₂ ∧
    Lossless ⟨exampleStreams, .putchar 65, s₁⟩ ∧ ¬ Lossless ⟨s₁, .puts greeting, s₂⟩ := by
  have before : Run (anyCalls reluctantKernel) exampleStreams [] exampleStreams := .nil _
  have first (st : State) : (anyCalls reluctantKernel).allowed st (.putchar 65) := ⟨trivial, trivial⟩
  have second (st : State) : (anyCalls reluctantKernel).allowed st (.puts greeting) :=
    ⟨trivial, trivial⟩
  have run := (before.snoc (first _) rfl).snoc (second _) rfl
  have each := lossless_run_iff reluctantKernel exampleStreams _ exampleStreams_started _ run
  refine ⟨_, _, rfl, rfl, (each _ (by simp)).mpr (.inr (.inl ?_)), fun lossless => ?_⟩
  · simp [TakenInFull, OutputCall.offers, OutputCall.output, flushed, Kernel.calls, reluctantKernel]
  · rcases (each _ (by simp)).mp lossless with flagged | taken | ⟨checked, -⟩
    · exact flagged rfl
    · exact absurd (taken _ List.mem_cons_self) (by decide)
    · exact Bool.noConfusion checked

end AxiomeToolchain.Guarantees.OutputLoss
