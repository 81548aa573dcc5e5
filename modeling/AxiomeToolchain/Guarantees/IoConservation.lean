import AxiomeToolchain.Guarantees.StdoutOrder
import AxiomeToolchain.Source.StdioTraffic

/-!
# Nothing is lost or made up between the callers and the kernel

Over every run that mixes the input and the output calls on any streams. The
library keeps no input back and holds no output between calls, so that for each
descriptor the bytes the callers were handed are the bytes the kernel delivered,
and the bytes the kernel took are bytes of the outputs, all in call order.
-/

set_option autoImplicit false

namespace AxiomeToolchain.Guarantees.IoConservation
open AxiomeToolchain.Library.Runs
open AxiomeToolchain.Source.Stdio
open AxiomeToolchain.Guarantees.StdoutOrder (TakesAll accepted_takesAll)

variable {kernel : Kernel} {st st' : State} {fd : Int}

/-- What the caller of an input call on `fd` was handed. -/
def handedOn (kernel : Kernel) (fd : Int) (step : Step State IoCall) : List UInt8 :=
  match step.call with
  | .input call =>
    if call.descriptor step.before = fd then (call.run kernel step.before).2.bytes else []
  | .output _ => []

/-- What an output call on `fd` was given to write. -/
def outputOn (fd : Int) (step : Step State IoCall) : List UInt8 :=
  match step.call with
  | .input _ => []
  | .output call => if (step.before.files call.stream).fd = fd then call.output else []

/-- What was taken of one step: in order, no byte twice, and all of it by a
kernel that takes whatever it is offered on the descriptor. -/
structure TakenOf (kernel : Kernel) (fd : Int) (part : List UInt8) (step : Step State IoCall) :
    Prop where
  within : part.Sublist (outputOn fd step)
  whole : TakesAll kernel fd → part = outputOn fd step

/-- What one call adds to both sides. -/
theorem step_conserved (ready : Ready st) {call : IoCall} (ok : call.allowed)
    (ret : call.run kernel st = some st') (fd : Int) :
    deliveredOn fd st'.reads = deliveredOn fd st.reads ++ handedOn kernel fd ⟨st, call, st'⟩ ∧
      ∃ part, acceptedOn fd st'.writes = acceptedOn fd st.writes ++ part ∧
        TakenOf kernel fd part ⟨st, call, st'⟩ := by
  cases call with
  | input call =>
    cases ret
    have taken := call.run_taken kernel ready.stdin
    refine ⟨taken.delivered fd, [], ?_, List.Sublist.refl _, fun _ => rfl⟩
    rw [taken.writes, List.append_nil]
  | output call =>
    obtain ⟨next, returned, sent, -⟩ := call.run_sent kernel ready.idle ready.stdout ok
    cases returned.symm.trans ret
    refine ⟨?_, _, sent.accepted_on fd, ?_, ?_⟩
    · rw [sent.reads]
      exact (List.append_nil _).symm
    · simp only [outputOn]
      split
      · rw [← offers_flatten call]
        exact calls_sublist kernel _ _ _
      · exact List.Sublist.refl _
    · intro full
      simp only [outputOn]
      split
      · next same =>
        rw [same] at sent ⊢
        rw [accepted_takesAll full, offers_flatten]
      · rfl

/-- In every run: for each descriptor the bytes handed to the callers, call by
call, are the bytes the kernel delivered, and the bytes it took are, call by
call, taken from the outputs in order, all of them if the kernel takes whatever
it is offered; and whatever call comes next returns. -/
theorem io_conserved (kernel : Kernel) (st st' : State) (start : Started st)
    (steps : List (Step State IoCall)) (run : Run (ioCalls kernel) st steps st') (fd : Int) :
    deliveredOn fd st'.reads = steps.flatMap (handedOn kernel fd) ∧
      (∃ parts, acceptedOn fd st'.writes = parts.flatten ∧
        List.Forall₂ (TakenOf kernel fd) parts steps) ∧
      ∀ call : IoCall, call.allowed → ∃ st'', call.run kernel st' = some st'' := by
  have ready := ioCalls_ready (run.reachable start)
  refine ⟨?_, ?_, fun call ok => IoCall.run_total ready ok⟩
  · have initially : deliveredOn fd st.reads = [] := by
      rw [start.2.2.2.2.2]
      rfl
    clear ready
    induction run with
    | nil => exact initially
    | snoc before ok ret ih =>
      have ready := ioCalls_ready (before.reachable start)
      rw [(step_conserved ready ok ret fd).1, ih, List.flatMap_append, List.flatMap_singleton]
  · have initially : acceptedOn fd st.writes = [] := by
      rw [start.2.2.2.2.1]
      rfl
    clear ready
    induction run with
    | nil => exact ⟨[], initially, .nil⟩
    | snoc before ok ret ih =>
      obtain ⟨parts, accepted, each⟩ := ih
      have ready := ioCalls_ready (before.reachable start)
      obtain ⟨part, more, taken⟩ := (step_conserved ready ok ret fd).2
      refine ⟨parts ++ [part], ?_, List.rel_append each (.cons taken .nil)⟩
      rw [more, accepted, List.flatten_append, List.flatten_singleton]

/-- Someone who types the letter a, whatever is asked for. -/
def typingKernel : Kernel :=
  { willingKernel with
    read := fun _ _ len => some ([97].take len)
    read_count := fun answer => by
      cases answer
      exact List.length_take_le _ _ }

/-- A character is read and written again. -/
theorem io_conserved_echo : ∃ st st' parts,
    InputCall.getchar.run typingKernel exampleStreams = (st, .char 97) ∧
      (OutputCall.putchar 97).run typingKernel st = some st' ∧
      deliveredOn 0 st'.reads = [97] ∧ acceptedOn 1 st'.writes = parts.flatten ∧
      parts = [[], [97]] := by
  have read : (ioCalls typingKernel).allowed exampleStreams (.input .getchar) := trivial
  have written : (ioCalls typingKernel).allowed (getchar typingKernel exampleStreams).1
    (.output (.putchar 97)) := trivial
  have conserved := io_conserved typingKernel exampleStreams _ exampleStreams_started _
    ((Run.single read rfl).snoc written rfl)
  obtain ⟨parts, accepted, each⟩ := (conserved 1).2.1
  refine ⟨_, _, parts, rfl, rfl, (conserved 0).1, accepted, ?_⟩
  cases each with
  | cons first rest =>
    cases rest with
    | cons second none_left =>
      cases none_left
      rw [first.whole (fun _ _ => rfl), second.whole (fun _ _ => rfl)]
      rfl

end AxiomeToolchain.Guarantees.IoConservation
