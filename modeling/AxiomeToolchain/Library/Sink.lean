import Mathlib

/-!
# Byte sinks

A sink takes one item at a time and may fail. Feeding a list composes along
`++`, so a program that only feeds a sink is known by the list it feeds. An array
filled from the front is a sink; drained from the last element on it feeds another.
-/

set_option autoImplicit false

namespace AxiomeToolchain.Library.Sink

variable {σ β : Type} {put : σ → β → Option σ}

/-- Feed the items one after the other. -/
def putAll (put : σ → β → Option σ) (s : σ) : List β → Option σ
  | [] => some s
  | x :: rest => (put s x).bind (fun s => putAll put s rest)

@[simp] theorem putAll_nil (s : σ) : putAll put s [] = some s := rfl

theorem putAll_cons (s : σ) (x : β) (rest : List β) :
    putAll put s (x :: rest) = (put s x).bind (fun s => putAll put s rest) := rfl

theorem putAll_append (s : σ) (xs ys : List β) :
    putAll put s (xs ++ ys) = (putAll put s xs).bind (fun s => putAll put s ys) := by
  induction xs generalizing s with
  | nil => rfl
  | cons x rest ih =>
    rw [List.cons_append, putAll_cons, putAll_cons, Option.bind_assoc]
    congr 1
    funext s
    exact ih s

theorem putAll_singleton (s : σ) (x : β) : putAll put s [x] = put s x := by
  rw [putAll_cons]
  exact Option.bind_fun_some _

/-! ## Arrays filled from the front -/

variable {α : Type} {n : Nat}

/-- An array of fixed size and the index of the next store. -/
structure Cursor (α : Type) (n : Nat) where
  array : Vector α n
  index : Nat

/-- `array[index++] = x` -/
def push (s : Cursor α n) (x : α) : Option (Cursor α n) :=
  if h : s.index < n then some ⟨s.array.set s.index x h, s.index + 1⟩ else none

/-- `while (i--) put(array[i])` -/
def drain (array : Vector α n) (put : σ → α → Option σ) : Nat → σ → Option σ
  | 0, st => some st
  | i + 1, st => (array[i]?).bind (fun x => (put st x).bind (drain array put i))

/-- The elements below the index are `xs`. -/
structure Holds (s : Cursor α n) (xs : List α) : Prop where
  index : s.index = xs.length
  fits : xs.length ≤ n
  elements : ∀ i, i < xs.length → s.array[i]? = xs[i]?

variable {s : Cursor α n} {xs : List α} {x : α}

theorem holds_nil (array : Vector α n) : Holds ⟨array, 0⟩ [] :=
  ⟨rfl, Nat.zero_le n, fun i inside => absurd inside (Nat.not_lt_zero i)⟩

theorem push_holds (holds : Holds s xs) (room : xs.length < n) :
    ∃ s', push s x = some s' ∧ Holds s' (xs ++ [x]) := by
  obtain ⟨array, index⟩ := s
  obtain ⟨rfl, -, elements⟩ := holds
  refine ⟨_, dif_pos room, ?_, ?_, ?_⟩
  · rw [List.length_append, List.length_singleton]
  · rw [List.length_append, List.length_singleton]
    exact room
  · intro i before
    rw [List.length_append, List.length_singleton] at before
    rw [Vector.getElem?_set]
    by_cases last : xs.length = i
    · subst last
      simp
    · have earlier : i < xs.length := by omega
      rw [if_neg last, List.getElem?_append_left earlier]
      exact elements i earlier

theorem pushAll_holds (ys : List α) (holds : Holds s xs) (room : xs.length + ys.length ≤ n) :
    ∃ s', putAll push s ys = some s' ∧ Holds s' (xs ++ ys) := by
  induction ys generalizing s xs with
  | nil => exact ⟨s, rfl, by rwa [List.append_nil]⟩
  | cons y ys ih =>
    rw [List.length_cons] at room
    obtain ⟨s', pushed, holds'⟩ := push_holds (x := y) holds (by omega)
    have room' : (xs ++ [y]).length + ys.length ≤ n := by
      rw [List.length_append, List.length_singleton]
      omega
    obtain ⟨s'', rest, holds''⟩ := ih holds' room'
    rw [List.append_assoc] at holds''
    exact ⟨s'', by rw [putAll_cons, pushed, Option.bind_some, rest], holds''⟩

/-- The last element goes first. -/
theorem drain_eq (array : Vector α n) (put : σ → α → Option σ) (st : σ)
    (elements : ∀ i, i < xs.length → array[i]? = xs[i]?) :
    drain array put xs.length st = putAll put st xs.reverse := by
  induction xs using List.reverseRecOn generalizing st with
  | nil => rfl
  | append_singleton xs x ih =>
    have last := elements xs.length (by simp)
    rw [List.getElem?_concat_length] at last
    have earlier : ∀ i, i < xs.length → array[i]? = xs[i]? := by
      intro i before
      rw [elements i (by simp; omega), List.getElem?_append_left before]
    rw [List.length_append, List.length_singleton, drain, last, Option.bind_some,
      List.reverse_append, List.reverse_singleton, List.singleton_append, putAll_cons]
    congr 1
    funext st
    exact ih st earlier

theorem drain_holds (holds : Holds s xs) (put : σ → α → Option σ) (st : σ) :
    drain s.array put s.index st = putAll put st xs.reverse := by
  rw [holds.index]
  exact drain_eq s.array put st holds.elements

end AxiomeToolchain.Library.Sink
