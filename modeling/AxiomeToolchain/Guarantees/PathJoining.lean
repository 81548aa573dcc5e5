import AxiomeToolchain.Library.Separated
import AxiomeToolchain.Source.Util

/-!
# ax_join_path cuts the concatenation, ax_basename takes the name back

For every capacity that holds the terminator. The base name of the join is the
joined name if the join was not cut and the name has no '/'.
-/

set_option autoImplicit false

namespace AxiomeToolchain.Guarantees.PathJoining
open AxiomeToolchain.Library.ByteMemory
open AxiomeToolchain.Library.Separated
open AxiomeToolchain.Source.Stdio (CString ascii)
open AxiomeToolchain.Source.Util

/-- The directory, '/' if it is neither empty nor ends in one, and the name. -/
def path (dir name : CString) : List UInt8 := dir.bytes ++ separator dir.bytes ++ name.bytes

variable (dir name : CString)

/-- In front of the name stands nothing or something that ends in '/'. -/
theorem separated_shape (dir : List UInt8) :
    dir ++ separator dir = [] ∨ ∃ front, dir ++ separator dir = front ++ [slash] := by
  rcases closed_cases slash dir with rfl | opened | ⟨front, rfl⟩
  · exact .inl rfl
  · exact .inr ⟨dir, congrArg (dir ++ ·) opened⟩
  · refine .inr ⟨front, ?_⟩
    have closed : separator (front ++ [slash]) = [] := closing_closed slash front
    rw [closed, List.append_nil]

theorem separator_nul_free : (0 : UInt8) ∉ dir.bytes ++ separator dir.bytes := by
  rw [List.mem_append, not_or]
  exact ⟨dir.nul_free, fun member => absurd (mem_closing member) (by decide)⟩

theorem basename_path (after : List UInt8) (plain : slash ∉ name.bytes) :
    axBasename (path dir name ++ 0 :: after) =
      some (dir.bytes ++ separator dir.bytes).length := by
  rw [axBasename, path]
  obtain empty | ⟨front, shape⟩ := separated_shape dir.bytes
  · rw [empty, List.nil_append]
    exact basenameLoop_plain 0 0 after name.nul_free plain
  · have nul_free := separator_nul_free dir
    rw [shape, List.mem_append, not_or] at nul_free
    rw [shape, List.append_assoc, List.append_assoc, List.singleton_append,
      basenameLoop_slash 0 0 _ nul_free.1, basenameLoop_plain _ _ after name.nul_free plain]
    rw [List.length_append, List.length_singleton, Nat.zero_add]

/-- For every directory, name and capacity above 0: the join stores inside
out[0..cap-1], leaves there the first cap - 1 bytes of the path and a NUL, and
if it had not to cut, the base name of `out` is the name. -/
theorem join_exact (m : Memory) (after after' : List UInt8) (out cap : Nat) (positive : 1 ≤ cap) :
    ∃ m', axJoinPath m (dir.terminated ++ after) (name.terminated ++ after') out cap = some m' ∧
      (∀ x, x < out ∨ out + cap ≤ x → m' x = m x) ∧
      bytesAt m' out (((path dir name).take (cap - 1)).length + 1) =
        (path dir name).take (cap - 1) ++ [0] ∧
      (slash ∉ name.bytes → (path dir name).length + 1 ≤ cap →
        ∃ offset behind, axBasename (bytesAt m' out cap) = some offset ∧
          (bytesAt m' out cap).drop offset = name.terminated ++ behind) := by
  have stored := bytesAt_writeBytes_same ((path dir name).take (cap - 1) ++ [0]) m out
  rw [List.length_append, List.length_singleton] at stored
  have run : axJoinPath m (dir.terminated ++ after) (name.terminated ++ after') out cap =
      some (writeBytes m out ((path dir name).take (cap - 1) ++ [0])) :=
    axJoinPath_eq m out cap dir name after after'
  refine ⟨_, run, ?_, stored, ?_⟩
  · intro x outside
    apply writeBytes_frame
    rw [List.length_append, List.length_take, List.length_singleton]
    omega
  · intro plain fits
    obtain ⟨more, rfl⟩ := Nat.exists_eq_add_of_le fits
    have whole : (path dir name).take ((path dir name).length + 1 + more - 1) = path dir name :=
      List.take_of_length_le (by omega)
    rw [whole] at stored ⊢
    rw [bytesAt_add, stored, List.append_assoc, List.singleton_append]
    generalize bytesAt (writeBytes m out (path dir name ++ [0])) _ more = behind
    refine ⟨_, behind, basename_path dir name behind plain, ?_⟩
    rw [path, List.append_assoc _ name.bytes, List.drop_left, CString.terminated_append]

/-- The name does not fit behind "/usr" and '/', in a buffer of 7 bytes at 16. -/
theorem join_exact_usr_bin :
    let dir : CString := ⟨ascii "/usr", by decide, by decide⟩
    let name : CString := ⟨ascii "bin", by decide, by decide⟩
    ∃ m', axJoinPath (fun _ => 0) (dir.terminated ++ []) (name.terminated ++ []) 16 7 = some m' ∧
      bytesAt m' 16 7 = ascii "/usr/b" ++ [0] := by
  obtain ⟨m', run, -, content, -⟩ := join_exact ⟨ascii "/usr", by decide, by decide⟩
    ⟨ascii "bin", by decide, by decide⟩ (fun _ => 0) [] [] 16 7 (by decide)
  exact ⟨m', run, content⟩

end AxiomeToolchain.Guarantees.PathJoining
