import Mathlib

/-!
# Lists made of parts

Two lists built part by part over the same index list, where one part is never
longer than its counterpart, are equal only part by part.
-/

set_option autoImplicit false

namespace AxiomeToolchain.Library.Parts

variable {ι β : Type} {l : List ι} {p q : ι → List β}

theorem flatMap_length_le (shorter : ∀ i ∈ l, (p i).length ≤ (q i).length) :
    (l.flatMap p).length ≤ (l.flatMap q).length := by
  induction l with
  | nil => exact Nat.le_refl 0
  | cons i rest ih =>
    have head := shorter i List.mem_cons_self
    have tail := ih (fun j later => shorter j (List.mem_cons_of_mem i later))
    simp only [List.flatMap_cons, List.length_append]
    omega

/-- When no part of the one text is longer than its part of the other, the texts
are equal only if all parts are. -/
theorem flatMap_eq_iff (shorter : ∀ i ∈ l, (p i).length ≤ (q i).length) :
    l.flatMap p = l.flatMap q ↔ ∀ i ∈ l, p i = q i := by
  induction l with
  | nil => simp
  | cons i rest ih =>
    have head := shorter i List.mem_cons_self
    have later : ∀ j ∈ rest, (p j).length ≤ (q j).length :=
      fun j member => shorter j (List.mem_cons_of_mem i member)
    have tail := flatMap_length_le later
    rw [List.flatMap_cons, List.flatMap_cons, List.forall_mem_cons, ← ih later]
    constructor
    · intro same
      have total := congrArg List.length same
      simp only [List.length_append] at total
      exact List.append_inj same (by omega)
    · rintro ⟨first, rest_same⟩
      rw [first, rest_same]

theorem flatMap_eq_iff_of_sublist (within : ∀ i ∈ l, (p i).Sublist (q i)) :
    l.flatMap q = l.flatMap p ↔ ∀ i ∈ l, q i = p i := by
  have parts := flatMap_eq_iff (fun i member => (within i member).length_le)
  rw [eq_comm, parts]
  exact forall₂_congr (fun i member => eq_comm)

theorem flatMap_filter (chosen : ι → Bool) (p : ι → List β) (l : List ι) :
    (l.filter chosen).flatMap p = l.flatMap (fun i => if chosen i then p i else []) := by
  induction l with
  | nil => rfl
  | cons i rest ih => cases pick : chosen i <;> simp [pick, ih]

end AxiomeToolchain.Library.Parts
