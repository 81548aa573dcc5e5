import Mathlib

/-!
# Lexicographic difference of byte lists

The difference of the first bytes that differ, a list that ends counting as 0
there. On lists without zero bytes its sign is the lexicographic order of
unsigned bytes with the shorter prefix first.
-/

set_option autoImplicit false

namespace AxiomeToolchain.Library.ByteOrder

def difference : List UInt8 → List UInt8 → Int
  | [], [] => 0
  | [], d :: _ => -d.toNat
  | c :: _, [] => c.toNat
  | c :: a, d :: b => if c = d then difference a b else c.toNat - d.toNat

variable {a b c : List UInt8}

theorem difference_swap (a b : List UInt8) : difference b a = -difference a b := by
  induction a generalizing b with
  | nil =>
    cases b with
    | nil => rfl
    | cons d b => simp [difference]
  | cons c a ih =>
    cases b with
    | nil => rfl
    | cons d b =>
      rw [difference, difference]
      by_cases same : c = d
      · rw [if_pos same, if_pos same.symm]
        exact ih b
      · rw [if_neg same, if_neg (Ne.symm same)]
        omega

theorem toNat_pos {d : UInt8} (nonzero : d ≠ 0) : 0 < d.toNat := by
  rw [Nat.pos_iff_ne_zero]
  intro zero
  exact nonzero (UInt8.toNat_inj.mp zero)

theorem nul_free_cons {d : UInt8} (free : (0 : UInt8) ∉ d :: a) : d ≠ 0 ∧ (0 : UInt8) ∉ a :=
  ⟨fun zero => free (zero ▸ List.mem_cons_self), fun member => free (List.mem_cons_of_mem d member)⟩

theorem difference_neg_iff (a_free : (0 : UInt8) ∉ a) (b_free : (0 : UInt8) ∉ b) :
    difference a b < 0 ↔ a < b := by
  induction a generalizing b with
  | nil =>
    cases b with
    | nil => simp [difference]
    | cons d b =>
      have positive := toNat_pos (nul_free_cons b_free).1
      simp only [difference, List.nil_lt_cons, iff_true]
      omega
  | cons c a ih =>
    cases b with
    | nil =>
      simp only [difference, List.not_lt_nil, iff_false]
      omega
    | cons d b =>
      rw [difference, List.cons_lt_cons_iff]
      by_cases same : c = d
      · rw [if_pos same, ih (nul_free_cons a_free).2 (nul_free_cons b_free).2]
        simp [same]
      · rw [if_neg same, UInt8.lt_iff_toNat_lt]
        simp only [same, false_and, or_false]
        omega

theorem difference_pos_iff (a_free : (0 : UInt8) ∉ a) (b_free : (0 : UInt8) ∉ b) :
    0 < difference a b ↔ b < a := by
  rw [← difference_neg_iff b_free a_free, difference_swap a b]
  omega

theorem difference_eq_zero_iff (a_free : (0 : UInt8) ∉ a) (b_free : (0 : UInt8) ∉ b) :
    difference a b = 0 ↔ a = b := by
  have less := difference_neg_iff a_free b_free
  have greater := difference_pos_iff a_free b_free
  constructor
  · intro zero
    apply List.le_antisymm
    · exact List.not_lt.mp (fun lt => absurd (greater.mpr lt) (by omega))
    · exact List.not_lt.mp (fun lt => absurd (less.mpr lt) (by omega))
  · rintro rfl
    have swapped := difference_swap a a
    omega

theorem difference_nonpos_iff (a_free : (0 : UInt8) ∉ a) (b_free : (0 : UInt8) ∉ b) :
    difference a b ≤ 0 ↔ a ≤ b := by
  have greater := difference_pos_iff a_free b_free
  rw [← Int.not_lt, greater]
  exact List.not_lt

end AxiomeToolchain.Library.ByteOrder
