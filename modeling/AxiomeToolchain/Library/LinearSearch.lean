import Mathlib

/-!
# First and last index

What a linear search returns: the least index with a property, or the greatest,
and `none` when no index has it. A search from the front goes on one index
later, a search that remembers its last hit covers one index more.
-/

set_option autoImplicit false

namespace AxiomeToolchain.Library.LinearSearch

def First (p : Nat → Prop) : Option Nat → Prop
  | some i => p i ∧ ∀ j, j < i → ¬ p j
  | none => ∀ i, ¬ p i

def Last (p : Nat → Prop) : Option Nat → Prop
  | some i => p i ∧ ∀ j, i < j → ¬ p j
  | none => ∀ i, ¬ p i

variable {p q : Nat → Prop} {r s : Option Nat} {n : Nat}

theorem First.here (found : p 0) : First p (some 0) :=
  ⟨found, fun j low => absurd low (Nat.not_lt_zero j)⟩

theorem First.later (missed : ¬ p 0) (rest : First (fun i => p (i + 1)) r) :
    First p (r.map (· + 1)) := by
  cases r with
  | none =>
    intro i
    cases i with
    | zero => exact missed
    | succ i => exact rest i
  | some i =>
    obtain ⟨found, earlier⟩ := rest
    constructor
    · exact found
    · intro j low
      cases j with
      | zero => exact missed
      | succ j => exact earlier j (Nat.lt_of_succ_lt_succ low)

theorem First.congr (same : ∀ i, p i ↔ q i) (first : First p r) : First q r := by
  rwa [show q = p from funext fun i => propext (same i).symm]

/-- There is only one first index. -/
theorem First.unique (first : First p r) (other : First p s) : r = s := by
  cases r with
  | none =>
    cases s with
    | none => rfl
    | some k => exact absurd other.1 (first k)
  | some i =>
    cases s with
    | none => exact absurd first.1 (other i)
    | some k =>
      rcases Nat.lt_trichotomy i k with less | same | greater
      · exact absurd first.1 (other.2 i less)
      · rw [same]
      · exact absurd other.1 (first.2 k greater)

theorem First.eq_iff (first : First p r) : r = s ↔ First p s := by
  constructor
  · rintro rfl
    exact first
  · exact first.unique

theorem Last.congr (same : ∀ i, p i ↔ q i) (last : Last p r) : Last q r := by
  rwa [show q = p from funext fun i => propext (same i).symm]

/-- Nothing has been looked at. -/
theorem Last.start : Last (fun i => i < 0 ∧ p i) none := fun i both =>
  absurd both.1 (Nat.not_lt_zero i)

theorem Last.hit (found : p n) : Last (fun i => i < n + 1 ∧ p i) (some n) :=
  ⟨⟨Nat.lt_succ_self n, found⟩, fun _ high both => by omega⟩

theorem Last.miss (missed : ¬ p n) (sofar : Last (fun i => i < n ∧ p i) r) :
    Last (fun i => i < n + 1 ∧ p i) r := by
  have later : ∀ i, ¬ (i < n ∧ p i) → ¬ (i < n + 1 ∧ p i) := by
    intro i out both
    rcases Nat.lt_succ_iff_lt_or_eq.mp both.1 with less | same
    · exact out ⟨less, both.2⟩
    · exact missed (same ▸ both.2)
  cases r with
  | none => exact fun i => later i (sofar i)
  | some k => exact ⟨⟨Nat.lt_succ_of_lt sofar.1.1, sofar.1.2⟩, fun i high => later i (sofar.2 i high)⟩

/-- All of a list has been looked at. -/
theorem Last.finish (short : ∀ i, p i → i < n) (sofar : Last (fun i => i < n ∧ p i) r) : Last p r :=
  sofar.congr (fun i => ⟨And.right, fun found => ⟨short i found, found⟩⟩)

end AxiomeToolchain.Library.LinearSearch
