import AxiomeToolchain.Source.StringScan

/-!
# strstr

The outer loop tries every start up to the terminator of the haystack, the inner
one compares up to either terminator. An empty needle is answered before the
haystack is read.
-/

set_option autoImplicit false

namespace AxiomeToolchain.Guarantees.SubstringSearch
open AxiomeToolchain.Library.LinearSearch
open AxiomeToolchain.Source.Stdio
open AxiomeToolchain.Source.StringScan

/-- The needle stands at offset `i` of the haystack. -/
def OccursAt (haystack needle : CString) (i : Nat) : Prop :=
  i ≤ haystack.bytes.length ∧ needle.bytes <+: haystack.bytes.drop i

variable {haystack needle : CString}

theorem occurs_iff_infix : (∃ i, OccursAt haystack needle i) ↔ needle.bytes <:+: haystack.bytes := by
  constructor
  · intro ⟨i, _, here⟩
    exact here.isInfix.trans (List.drop_suffix i _).isInfix
  · intro ⟨front, back, whole⟩
    refine ⟨front.length, ?_, ?_⟩
    · rw [← whole, List.append_assoc, List.length_append]
      omega
    · rw [← whole, List.append_assoc, List.drop_left]
      exact List.prefix_append _ _

theorem strstr_first (haystack needle : CString) (after after' : List UInt8) :
    ∃ r, strstr (haystack.terminated ++ after) (needle.terminated ++ after') = some r ∧
      First (OccursAt haystack needle) r := by
  simp only [CString.terminated, List.append_assoc, List.singleton_append]
  cases bytes : needle.bytes with
  | nil =>
    refine ⟨some 0, rfl, .here ⟨Nat.zero_le _, ?_⟩⟩
    rw [bytes]
    exact List.nil_prefix
  | cons d rest =>
    have free := needle.nul_free
    have nonzero : d ≠ 0 := by
      rintro rfl
      exact free (bytes ▸ List.mem_cons_self)
    have search := strstrLoop_first after after' haystack.nul_free free (by simp [bytes])
    simp only [bytes] at search
    obtain ⟨r, run, first⟩ := search
    refine ⟨r, ?_, first.congr (fun i => by rw [OccursAt, bytes])⟩
    rw [List.cons_append, strstr, if_neg nonzero]
    exact run

/-- For all strings, whatever follows them: strstr returns the first offset at
which the needle is a prefix, and NULL exactly for no substring. -/
theorem strstr_finds (haystack needle : CString) (after after' : List UInt8) :
    ∃ r, strstr (haystack.terminated ++ after) (needle.terminated ++ after') = some r ∧
      (∀ i, r = some i ↔ OccursAt haystack needle i ∧ ∀ j, j < i → ¬ OccursAt haystack needle j) ∧
      (r = none ↔ ¬ needle.bytes <:+: haystack.bytes) := by
  obtain ⟨r, run, first⟩ := strstr_first haystack needle after after'
  refine ⟨r, run, fun i => first.eq_iff, ?_⟩
  rw [first.eq_iff, ← occurs_iff_infix, not_exists]
  exact Iff.rfl

/-- A needle that overlaps itself, one longer than what is left, an empty one in an
empty haystack. -/
example : strstr [97, 97, 97, 98, 0] [97, 97, 98, 0] = some (some 1) ∧
    strstr [97, 98, 0] [98, 99, 0] = some none ∧ strstr [0] [0] = some (some 0) := by decide

end AxiomeToolchain.Guarantees.SubstringSearch
