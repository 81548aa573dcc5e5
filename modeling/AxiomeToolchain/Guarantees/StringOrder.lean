import AxiomeToolchain.Source.StringScan

/-!
# One order for strcmp, strncmp and memcmp

All three return the difference of the first bytes that differ, the terminator
included. strncmp stops at n or at a common terminator, so it sees the truncated
strings; memcmp over the shorter string and its terminator sees both of them.
-/

set_option autoImplicit false

namespace AxiomeToolchain.Guarantees.StringOrder
open AxiomeToolchain.Library.ByteOrder
open AxiomeToolchain.Source.Stdio
open AxiomeToolchain.Source.StringScan

/-- The sign of a result is the lexicographic order of the bytes. -/
structure Orders (a b : CString) (r : Int) : Prop where
  less : r < 0 ↔ a.bytes < b.bytes
  equal : r = 0 ↔ a.bytes = b.bytes
  greater : 0 < r ↔ b.bytes < a.bytes

/-- The string cut off after `n` bytes. -/
def truncated (s : CString) (n : Nat) : CString where
  bytes := s.bytes.take n
  nul_free := fun member => s.nul_free (List.mem_of_mem_take member)
  fits := by
    rw [List.length_take]
    exact Nat.lt_of_le_of_lt (Nat.min_le_right _ _) s.fits

variable {a b c : CString}

theorem strcmp_strings (a b : CString) (after after' : List UInt8) :
    strcmp (a.terminated ++ after) (b.terminated ++ after') = some (difference a.bytes b.bytes) := by
  rw [CString.terminated_append, CString.terminated_append]
  exact strcmp_eq after after' a.nul_free b.nul_free

theorem difference_orders (a b : CString) : Orders a b (difference a.bytes b.bytes) where
  less := difference_neg_iff a.nul_free b.nul_free
  equal := difference_eq_zero_iff a.nul_free b.nul_free
  greater := difference_pos_iff a.nul_free b.nul_free

theorem difference_trans (ab : difference a.bytes b.bytes ≤ 0) (bc : difference b.bytes c.bytes ≤ 0) :
    difference a.bytes c.bytes ≤ 0 ∧ (difference a.bytes c.bytes = 0 →
      difference a.bytes b.bytes = 0 ∧ difference b.bytes c.bytes = 0) := by
  have a_le_b := (difference_nonpos_iff a.nul_free b.nul_free).mp ab
  have b_le_c := (difference_nonpos_iff b.nul_free c.nul_free).mp bc
  constructor
  · rw [difference_nonpos_iff a.nul_free c.nul_free]
    exact List.le_trans a_le_b b_le_c
  · intro zero
    have ends := (difference_eq_zero_iff a.nul_free c.nul_free).mp zero
    have between := List.le_antisymm a_le_b (ends ▸ b_le_c)
    rw [difference_eq_zero_iff a.nul_free b.nul_free, difference_eq_zero_iff b.nul_free c.nul_free]
    exact ⟨between, between ▸ ends⟩

/-- The three functions return one total order of strings, whatever follows the
terminators. -/
theorem comparisons_agree (a b : CString) (after after' : List UInt8) (n : Nat) :
    ∃ r, strcmp (a.terminated ++ after) (b.terminated ++ after') = some r ∧ Orders a b r ∧
      strcmp (b.terminated ++ after') (a.terminated ++ after) = some (-r) ∧
      strncmp (a.terminated ++ after) (b.terminated ++ after') n =
        strcmp (truncated a n).terminated (truncated b n).terminated ∧
      memcmp (a.terminated ++ after) (b.terminated ++ after')
        (min a.bytes.length b.bytes.length + 1) = some r ∧
      ∀ (c : CString) (after'' : List UInt8) (s t : Int),
        strcmp (b.terminated ++ after') (c.terminated ++ after'') = some s →
        strcmp (a.terminated ++ after) (c.terminated ++ after'') = some t →
        r ≤ 0 → s ≤ 0 → t ≤ 0 ∧ (t = 0 → r = 0 ∧ s = 0) := by
  refine ⟨difference a.bytes b.bytes, strcmp_strings a b after after', difference_orders a b,
    ?_, ?_, ?_, ?_⟩
  · rw [strcmp_strings, difference_swap]
  · have cut := strcmp_strings (truncated a n) (truncated b n) [] []
    rw [List.append_nil, List.append_nil] at cut
    rw [cut, CString.terminated_append, CString.terminated_append]
    exact strncmp_eq after after' n a.nul_free b.nul_free
  · rw [CString.terminated_append, CString.terminated_append]
    exact memcmp_eq after after' a.nul_free b.nul_free
  · intro c after'' s t second third ab bc
    rw [strcmp_strings] at second third
    cases second
    cases third
    exact difference_trans ab bc

/-- A byte above 127 comes after every ASCII character. -/
example : strcmp [0xE9, 0] [0x7A, 0] = some 111 ∧ strncmp [0x61, 0xE9, 0] [0x61, 0] 1 = some 0 := by
  decide

def shortName : CString := ⟨ascii "ab", by decide, by decide⟩

def longName : CString := ⟨ascii "abc", by decide, by decide⟩

def lastName : CString := ⟨ascii "b", by decide, by decide⟩

theorem comparisons_agree_names : ∃ r,
    strcmp (shortName.terminated ++ []) (longName.terminated ++ []) = some r ∧
      Orders shortName longName r ∧
      ∃ t, strcmp (shortName.terminated ++ []) (lastName.terminated ++ []) = some t ∧ t ≤ 0 := by
  obtain ⟨r, run, orders, -, -, -, transitive⟩ := comparisons_agree shortName longName [] [] 2
  have value : strcmp (shortName.terminated ++ []) (longName.terminated ++ []) = some (-99) := by
    decide
  have nonpos : r ≤ 0 := by
    rw [value] at run
    cases run
    decide
  have third : strcmp (shortName.terminated ++ []) (lastName.terminated ++ []) = some (-1) := by
    decide
  have bounded := transitive lastName [] (-1) (-1) (by decide) third nonpos (by decide)
  exact ⟨r, run, orders, -1, third, bounded.1⟩

end AxiomeToolchain.Guarantees.StringOrder
