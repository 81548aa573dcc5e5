import AxiomeToolchain.Library.LinearSearch
import AxiomeToolchain.Library.Prefixes
import AxiomeToolchain.Source.Stdio

/-!
# `getenv`

sdk/src/stdlib.c:11-19,216-231. A pointer to a string is the bytes from it to
the end of its object, NULL is `none`, and the outer `none` is a read past the
end of an object or of the array `environ`. The pointer returned is the index of
the entry and the offset into it.
-/

set_option autoImplicit false

namespace AxiomeToolchain.Source.Environment
open AxiomeToolchain.Library.LinearSearch
open AxiomeToolchain.Library.Prefixes
open AxiomeToolchain.Source.Stdio (CString)

def equalsSign : UInt8 := 61

/-- `while (name[namelen]) namelen++` -/
def nameLength : List UInt8 → Option Nat
  | [] => none
  | c :: name => if c = 0 then some 0 else (nameLength name).map (· + 1)

/-- `while (i < namelen && e[i] == name[i]) i++`, over the `namelen` bytes of the name. -/
def agreement : List UInt8 → List UInt8 → Option Nat
  | _, [] => some 0
  | [], _ :: _ => none
  | b :: e, c :: name => if b = c then (agreement e name).map (· + 1) else some 0

/-- `i == namelen && e[i] == '='` -/
def entryMatches (e name : List UInt8) : Option Bool :=
  (agreement e name).bind (fun i =>
    if i = name.length then (e[i]?).map (fun b => decide (b = equalsSign)) else some false)

/-- `for (char **p = environ; *p; p++)` -/
def searchLoop (name : List UInt8) : List (Option (List UInt8)) → Option (Option (Nat × Nat))
  | [] => none
  | none :: _ => some none
  | some e :: rest =>
    (entryMatches e name).bind (fun found =>
      if found then some (some (0, name.length + 1))
      else (searchLoop name rest).map (Option.map (fun found => (found.1 + 1, found.2))))

def getenv (environ : Option (List (Option (List UInt8)))) (name : Option (List UInt8)) :
    Option (Option (Nat × Nat)) :=
  match name with
  | none => some none
  | some [] => none
  | some (c :: rest) =>
    if c = 0 then some none
    else
      match environ with
      | none => some none
      | some entries =>
        (nameLength (c :: rest)).bind (fun namelen => searchLoop ((c :: rest).take namelen) entries)

/-! ## One entry -/

variable {e name after : List UInt8}

theorem nameLength_eq (after : List UInt8) (nul_free : (0 : UInt8) ∉ name) :
    nameLength (name ++ 0 :: after) = some name.length := by
  induction name with
  | nil => rfl
  | cons c name ih =>
    rw [List.mem_cons, not_or] at nul_free
    rw [List.cons_append, nameLength, if_neg (Ne.symm nul_free.1), ih nul_free.2, Option.map_some,
      List.length_cons]

/-- The loop stops at the latest at the terminator of the entry, which no byte of
the name equals. -/
theorem agreement_eq (e after : List UInt8) (nul_free : (0 : UInt8) ∉ name) :
    ∃ i, agreement (e ++ 0 :: after) name = some i ∧ (i = name.length ↔ name <+: e) := by
  induction name generalizing e with
  | nil => exact ⟨0, by rw [agreement], iff_of_true rfl List.nil_prefix⟩
  | cons c name ih =>
    rw [List.mem_cons, not_or] at nul_free
    cases e with
    | nil =>
      refine ⟨0, by rw [List.nil_append, agreement, if_neg nul_free.1], iff_of_false (by simp) ?_⟩
      exact fun within => absurd (List.prefix_nil.mp within) (List.cons_ne_nil c name)
    | cons b e =>
      rw [List.cons_append, agreement, List.cons_prefix_cons]
      by_cases same : b = c
      · obtain ⟨i, run, whole⟩ := ih e nul_free.2
        refine ⟨i + 1, by rw [if_pos same, run]; rfl, ?_⟩
        rw [List.length_cons, Nat.add_right_cancel_iff, whole]
        exact (and_iff_right same.symm).symm
      · exact ⟨0, by rw [if_neg same], iff_of_false (by simp) (fun both => same both.1.symm)⟩

/-- An entry matches when it is the name, a '=' and more. -/
theorem entryMatches_eq (e after : List UInt8) (nul_free : (0 : UInt8) ∉ name) :
    ∃ found, entryMatches (e ++ 0 :: after) name = some found ∧
      (found = true ↔ ∃ value, e = name ++ equalsSign :: value) := by
  obtain ⟨i, run, whole⟩ := agreement_eq e after nul_free
  rw [entryMatches, run, Option.bind_some]
  by_cases stops : i = name.length
  · obtain ⟨rest, rfl⟩ := whole.mp stops
    rw [if_pos stops, stops, List.append_assoc, List.getElem?_append_right (Nat.le_refl _),
      Nat.sub_self]
    cases rest with
    | nil =>
      refine ⟨false, rfl, iff_of_false Bool.false_ne_true ?_⟩
      rintro ⟨value, parts⟩
      exact absurd (List.append_cancel_left parts) (List.cons_ne_nil _ _).symm
    | cons b rest =>
      refine ⟨decide (b = equalsSign), rfl, ?_⟩
      rw [decide_eq_true_eq]
      constructor
      · rintro rfl
        exact ⟨rest, rfl⟩
      · rintro ⟨value, parts⟩
        exact (List.cons.inj (List.append_cancel_left parts)).1
  · refine ⟨false, if_neg stops, iff_of_false Bool.false_ne_true ?_⟩
    rintro ⟨value, rfl⟩
    exact stops (whole.mpr (List.prefix_append _ _))

end AxiomeToolchain.Source.Environment
