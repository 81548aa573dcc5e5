import AxiomeToolchain.Source.StdioCalls

/-!
# Standard output in program order

When the kernel takes every byte written to descriptor 1, a run of output calls
on stdout delivers the outputs of the calls one after the other. outbuf is empty
between calls, and no sequence of emits leaves it.
-/

set_option autoImplicit false

namespace AxiomeToolchain.Guarantees.StdoutOrder
open AxiomeToolchain.Library.Sink
open AxiomeToolchain.Library.Runs
open AxiomeToolchain.Source.Stdio
open AxiomeToolchain.Source.Format

/-- The kernel takes all bytes of every write to `fd`. -/
def TakesAll (kernel : Kernel) (fd : Int) : Prop := ∀ k len, kernel.write k fd len = some len

/-- The output calls on stdout. -/
abbrev stdoutCalls (kernel : Kernel) : System State OutputCall :=
  outputCalls kernel (fun call => call.stream = .stdout)

variable {kernel : Kernel} {st st' : State} {steps : List (Step State OutputCall)}

theorem accepted_takesAll {fd : Int} (full : TakesAll kernel fd) (k : Nat) (bs : List (List UInt8)) :
    (kernel.calls fd k bs).flatMap WriteCall.accepted = bs.flatten := by
  induction bs generalizing k with
  | nil => rfl
  | cons b rest ih =>
    rw [Kernel.calls, List.flatMap_cons, ih, List.flatten_cons, WriteCall.accepted, full,
      Option.getD_some, List.take_length]

/-- What has reached descriptor 1 is the output of the calls so far. -/
theorem run_accepted (full : TakesAll kernel 1) (start : Started st)
    (run : Run (stdoutCalls kernel) st steps st') :
    acceptedOn 1 st'.writes = steps.flatMap (fun step => step.call.output) := by
  have initially : acceptedOn 1 st.writes = [] := by
    rw [start.2.2.2.2.1]
    rfl
  induction run with
  | nil => exact initially
  | snoc before ok ret ih =>
    obtain ⟨idle, descriptor⟩ := outputCalls_idle (before.reachable start)
    obtain ⟨next, returned, sent, -⟩ := OutputCall.run_sent kernel idle descriptor ok.1
    cases returned.symm.trans ret
    rw [ok.2, descriptor] at sent
    rw [sent.accepted, ih, accepted_takesAll full, offers_flatten, List.flatMap_append,
      List.flatMap_singleton]

/-- Every allowed call returns, and makes the run one call longer. -/
theorem run_extends (start : Started st) (run : Run (stdoutCalls kernel) st steps st')
    (call : OutputCall) (ok : call.allowed) (onStdout : call.stream = .stdout) :
    ∃ after, call.run kernel st' = some after ∧
      Run (stdoutCalls kernel) st (steps ++ [⟨st', call, after⟩]) after := by
  obtain ⟨idle, descriptor⟩ := outputCalls_idle (run.reachable start)
  obtain ⟨after, returned, -⟩ := OutputCall.run_sent kernel idle descriptor ok
  exact ⟨after, returned, run.snoc ⟨ok, onStdout⟩ returned⟩

/-- After any run of output calls on stdout: descriptor 1 holds their outputs in
call order, outbuf is empty, every allowed call returns, and any sequence of
emits stays inside outbuf and leaves at most 254 bytes there. -/
theorem stdout_in_order (kernel : Kernel) (full : TakesAll kernel 1) (st st' : State)
    (start : Started st) (steps : List (Step State OutputCall))
    (run : Run (stdoutCalls kernel) st steps st') :
    acceptedOn 1 st'.writes = steps.flatMap (fun step => step.call.output) ∧
      st'.outlen = 0 ∧
      (∀ call : OutputCall, call.allowed → call.stream = .stdout →
        ∃ after, call.run kernel st' = some after) ∧
      ∀ bytes, ∃ mid, putAll (emit kernel) st' bytes = some mid ∧ mid.outlen ≤ outbufSize - 2 := by
  obtain ⟨idle, -⟩ := outputCalls_idle (run.reachable start)
  refine ⟨run_accepted full start run, idle, fun call ok onStdout => ?_, fun bytes => ?_⟩
  · obtain ⟨after, returned, -⟩ := run_extends start run call ok onStdout
    exact ⟨after, returned⟩
  · have room : st'.outlen ≤ outbufSize - 2 := by rw [idle]; exact Nat.zero_le _
    obtain ⟨mid, emitted, kept⟩ := putAll_emitted kernel room bytes
    exact ⟨mid, emitted, kept.room⟩

def exampleFormat : CString := ⟨ascii "n=%d ", by decide, by decide⟩

def exampleText : CString := ⟨ascii "of 9", by decide, by decide⟩

/-- A printf through outbuf, fputs and putchar past it, and puts through it again. -/
theorem stdout_in_order_mixed : ∃ s₁ s₂ s₃ s₄ : State,
    (OutputCall.printf exampleFormat [⟨7, .empty⟩]).run willingKernel exampleStreams = some s₁ ∧
    (OutputCall.fputs exampleText .stdout).run willingKernel s₁ = some s₂ ∧
    (OutputCall.putchar 44).run willingKernel s₂ = some s₃ ∧
    (OutputCall.puts exampleText).run willingKernel s₃ = some s₄ ∧
    acceptedOn 1 s₄.writes = ascii "n=7 of 9,of 9\n" ∧ s₄.outlen = 0 := by
  have start := exampleStreams_started
  have before : Run (stdoutCalls willingKernel) exampleStreams [] exampleStreams := .nil _
  have enough : (OutputCall.printf exampleFormat [⟨7, .empty⟩]).allowed := rfl
  obtain ⟨s₁, ret₁, run⟩ := run_extends start before _ enough rfl
  obtain ⟨s₂, ret₂, run⟩ := run_extends start run (.fputs exampleText .stdout)
    Stream.noConfusion rfl
  obtain ⟨s₃, ret₃, run⟩ := run_extends start run (.putchar 44) trivial rfl
  obtain ⟨s₄, ret₄, run⟩ := run_extends start run (.puts exampleText) trivial rfl
  obtain ⟨sent, idle, -⟩ := stdout_in_order willingKernel (fun _ _ => rfl) exampleStreams s₄ start _ run
  exact ⟨s₁, s₂, s₃, s₄, ret₁, ret₂, ret₃, ret₄, sent, idle⟩

end AxiomeToolchain.Guarantees.StdoutOrder
