import AxiomeToolchain.Library.Separated
import AxiomeToolchain.Source.StringBuild
import AxiomeToolchain.Source.Util

/-!
# `ax_join_path` in the memory of the process

sdk/include/util.h:56-65 with all three pointers into one memory, so that the
directory may be the buffer itself. Both loops are the bounded copy of strncpy,
`pl + 1 < cap` being `pl < cap - 1`. `axJoinPath_refines` says that this is
`axJoinPath` of Util where the strings are read before they are overwritten.
-/

set_option autoImplicit false

namespace AxiomeToolchain.Source.PathMemory
open AxiomeToolchain.Library.ByteMemory
open AxiomeToolchain.Library.Separated
open AxiomeToolchain.Library.TerminatedString
open AxiomeToolchain.Source.Stdio (CString)
open AxiomeToolchain.Source.StringBuild (boundedLoop boundedLoop_eq)
open AxiomeToolchain.Source.Util (slash separate joined separate_eq)

def axJoinPath (m : Memory) (dir name out cap : Nat) : Memory :=
  let (m, pl) := boundedLoop out dir (cap - 1) m 0
  let (m, pl) := separate m out pl cap
  let (m, nl) := boundedLoop (out + pl) name (cap - 1 - pl) m 0
  writeByte m (out + pl + nl) 0

variable {m : Memory} {dir name out cap : Nat} {s t : List UInt8}

/-- The string does not lie in `out[0..cap-1]`. -/
def Apart (out cap name : Nat) (t : List UInt8) : Prop :=
  name + t.length < out ∨ out + cap ≤ name

/-- The directory is copied to its own place, downwards, or away from itself. -/
theorem boundedLoop_joined (held : StringAt m dir s) (ahead : out ≤ dir ∨ dir + s.length < out) :
    boundedLoop out dir (cap - 1) m 0 = joined m out cap s := by
  have start : TextAt m (dir + 0) (cap - 1) (s.take (cap - 1)) := held.text (cap - 1)
  rw [boundedLoop_eq start (by rw [List.length_take]; omega), joined, Nat.add_zero, Nat.zero_add]

/-- The name follows what has been joined, as long as it is not cut. -/
theorem boundedLoop_name (u : List UInt8) (held : StringAt m name t)
    (apart : Apart out cap name t) :
    boundedLoop (out + (joined m out cap u).2) name (cap - 1 - (joined m out cap u).2)
        (joined m out cap u).1 0 =
      (writeBytes (joined m out cap u).1 (out + (joined m out cap u).2)
          (t.take (cap - 1 - u.length)), (t.take (cap - 1 - u.length)).length) := by
  have left : cap - 1 - (joined m out cap u).2 = cap - 1 - u.length := by
    rw [joined, List.length_take]
    omega
  have kept : StringAt (joined m out cap u).1 (name + 0) t := by
    apply held.congr
    intro x low high
    apply writeBytes_frame
    unfold Apart at apart
    rw [List.length_take]
    omega
  have away : out + (joined m out cap u).2 ≤ name ∨
      name + min (cap - 1 - u.length) ((t.take (cap - 1 - u.length)).length + 1) ≤
        out + (joined m out cap u).2 := by
    unfold Apart at apart
    rw [joined, List.length_take, List.length_take]
    omega
  rw [left, boundedLoop_eq (kept.text _) away, Nat.add_zero, Nat.zero_add]

/-- The first `cap - 1` bytes of the path and a NUL are stored, in one block. -/
theorem axJoinPath_eq (held : StringAt m dir s) (ahead : out ≤ dir ∨ dir + s.length < out)
    (named : StringAt m name t) (apart : Apart out cap name t) :
    axJoinPath m dir name out cap =
      writeBytes m out ((join slash s t).take (cap - 1) ++ [0]) := by
  have separated := separate_eq m out cap s
  have followed := boundedLoop_name (s ++ closing slash s) named apart
  rw [axJoinPath, boundedLoop_joined held ahead]
  simp only [separated]
  change writeByte
    (boundedLoop (out + (joined m out cap (s ++ closing slash s)).2) _ _ _ _).1 _ _ = _
  rw [join, List.take_append, List.append_assoc, writeBytes_append, writeBytes_append]
  exact congrArg (fun done => writeByte done.1
    (out + (joined m out cap (s ++ closing slash s)).2 + done.2) 0) followed

theorem axJoinPath_refines (d n : CString) (after after' : List UInt8)
    (held : StringAt m dir d.bytes) (ahead : out ≤ dir ∨ dir + d.bytes.length < out)
    (named : StringAt m name n.bytes) (apart : Apart out cap name n.bytes) :
    Util.axJoinPath m (d.terminated ++ after) (n.terminated ++ after') out cap =
      some (axJoinPath m dir name out cap) := by
  rw [Util.axJoinPath_eq, axJoinPath_eq held ahead named apart]
  rfl

theorem join_nul_free (first : (0 : UInt8) ∉ s) (second : (0 : UInt8) ∉ t) :
    (0 : UInt8) ∉ join slash s t := by
  have closed : (0 : UInt8) ∉ closing slash s := fun member =>
    absurd (mem_closing member) (by decide)
  rw [join, List.mem_append, List.mem_append, not_or, not_or]
  exact ⟨⟨first, closed⟩, second⟩

/-- What is in the buffer afterwards, and that nothing else has changed. -/
theorem axJoinPath_string (positive : 1 ≤ cap) (held : StringAt m dir s)
    (ahead : out ≤ dir ∨ dir + s.length < out) (named : StringAt m name t)
    (apart : Apart out cap name t) :
    StringAt (axJoinPath m dir name out cap) out ((join slash s t).take (cap - 1)) ∧
      ∀ x, x < out ∨ out + cap ≤ x → axJoinPath m dir name out cap x = m x := by
  rw [axJoinPath_eq held ahead named apart]
  refine ⟨stringAt_written m out fun member => ?_, fun x outside => ?_⟩
  · exact join_nul_free held.nul_free named.nul_free (List.mem_of_mem_take member)
  · apply writeBytes_frame
    rw [List.length_append, List.length_take, List.length_singleton]
    omega

end AxiomeToolchain.Source.PathMemory
