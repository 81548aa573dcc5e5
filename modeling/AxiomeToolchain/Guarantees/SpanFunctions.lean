import AxiomeToolchain.Library.Prefixes
import AxiomeToolchain.Source.StringToken

/-!
# What the span functions partition

strspn and strcspn measure the longest prefix inside and outside a set of bytes,
and strpbrk points behind the second one. Nothing is read behind the terminator
of the string or of the set, whatever stands there.
-/

set_option autoImplicit false

namespace AxiomeToolchain.Guarantees.SpanFunctions
open AxiomeToolchain.Library.Prefixes
open AxiomeToolchain.Source.Stdio (CString)
open AxiomeToolchain.Source.StringToken

variable {set : CString} {bytes : List UInt8}

/-- Where strcspn stops. -/
def stop (set : CString) (bytes : List UInt8) : Nat :=
  (bytes.takeWhile (fun c => !set.bytes.contains c)).length

theorem strspn_string (s set : CString) (after after' : List UInt8) :
    strspn (s.terminated ++ after) (set.terminated ++ after') =
      some (s.bytes.takeWhile (fun c => set.bytes.contains c)).length := by
  rw [CString.terminated_append, strspn, spanLoop_eq true after' s.nul_free]
  simp only [beq_true]

theorem strcspn_string (s set : CString) (after after' : List UInt8) :
    strcspn (s.terminated ++ after) (set.terminated ++ after') = some (stop set s.bytes) := by
  rw [CString.terminated_append, strcspn, spanLoop_eq false after' s.nul_free]
  simp only [beq_false, stop]

theorem strpbrk_stop (after after' : List UInt8) (nul_free : (0 : UInt8) ∉ bytes) :
    strpbrk (bytes ++ 0 :: after) (set.terminated ++ after') =
      some (if stop set bytes = bytes.length then none else some (stop set bytes)) := by
  induction bytes with
  | nil => rfl
  | cons c rest ih =>
    rw [List.mem_cons, not_or] at nul_free
    rw [List.cons_append, strpbrk, if_neg (Ne.symm nul_free.1), CString.terminated_append,
      inSet_eq set.bytes after' set.nul_free, Option.bind_some]
    cases found : set.bytes.contains c with
    | true =>
      have here : stop set (c :: rest) = 0 := by
        rw [stop, List.takeWhile_cons_of_neg (by simp only [found, Bool.not_true]; decide)]
        rfl
      rw [if_pos rfl, here, if_neg (by simp)]
    | false =>
      have later : stop set (c :: rest) = stop set rest + 1 := by
        rw [stop, List.takeWhile_cons_of_pos (by rw [found]; rfl), List.length_cons, stop]
      rw [if_neg Bool.false_ne_true, ← CString.terminated_append, ih nul_free.2, later,
        List.length_cons, Option.map_some]
      by_cases whole : stop set rest = rest.length
      · rw [if_pos whole, if_pos (by rw [whole]), Option.map_none]
      · rw [if_neg whole, if_neg (by omega), Option.map_some]

/-- For every string, every set and whatever follows their terminators: strspn
is the length of the longest prefix of bytes in the set, strcspn that of the
longest one without any, and strpbrk points to where strcspn stopped, unless
that is the terminator. -/
theorem spans_partition (s set : CString) (after after' : List UInt8) :
    ∃ inside outside,
      strspn (s.terminated ++ after) (set.terminated ++ after') = some inside.length ∧
      LongestPrefix (fun p => ∀ c ∈ p, c ∈ set.bytes) s.bytes inside ∧
      strcspn (s.terminated ++ after) (set.terminated ++ after') = some outside.length ∧
      LongestPrefix (fun p => ∀ c ∈ p, c ∉ set.bytes) s.bytes outside ∧
      strpbrk (s.terminated ++ after) (set.terminated ++ after') =
        some (if outside.length = s.bytes.length then none else some outside.length) := by
  have inside := takeWhile_longest (fun c => set.bytes.contains c) s.bytes
  have outside := takeWhile_longest (fun c => !set.bytes.contains c) s.bytes
  simp only [List.contains_eq_mem, decide_eq_true_eq] at inside
  simp only [List.contains_eq_mem, Bool.not_eq_true', decide_eq_false_iff_not] at outside
  refine ⟨_, _, ?_, inside, ?_, outside, ?_⟩
  · rw [strspn_string]
    simp only [List.contains_eq_mem]
  · rw [strcspn_string, stop]
    simp only [List.contains_eq_mem]
  · rw [CString.terminated_append, strpbrk_stop after after' s.nul_free, stop]
    simp only [List.contains_eq_mem]

end AxiomeToolchain.Guarantees.SpanFunctions
