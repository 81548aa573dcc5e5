import AxiomeToolchain.Library.ByteMemory
import AxiomeToolchain.Source.FormatText

/-!
# The stores of vsnprintf_internal

A run that produces the text `bytes` stores it byte by byte from index 0, as far
as the buffer goes, and then a NUL. Replayed into memory the stores of sprintf
are the text and its terminator.
-/

set_option autoImplicit false

namespace AxiomeToolchain.Source.Format
open AxiomeToolchain.Library.ByteMemory
open AxiomeToolchain.Library.CInt
open AxiomeToolchain.Library.Sink
open AxiomeToolchain.Source.Stdio

/-- Consecutive stores from index `i` on. -/
def indexed : Nat → List UInt8 → List (Nat × UInt8)
  | _, [] => []
  | i, c :: rest => (i, c) :: indexed (i + 1) rest

/-- The memory after the stores into the buffer at `str`. -/
def replay (m : Memory) (str : Nat) (stores : List (Nat × UInt8)) : Memory :=
  stores.foldl (fun m store => writeByte m (str + store.1) store.2) m

variable {target : Target} {bytes : List UInt8} {stores : List (Nat × UInt8)} {pos : Nat}

theorem indexed_append (i : Nat) (xs ys : List UInt8) :
    indexed i (xs ++ ys) = indexed i xs ++ indexed (i + xs.length) ys := by
  induction xs generalizing i with
  | nil => rfl
  | cons c rest ih =>
    rw [List.cons_append, indexed, ih, indexed, List.cons_append, List.length_cons]
    rw [show i + 1 + rest.length = i + (rest.length + 1) by omega]

theorem replay_indexed (m : Memory) (str i : Nat) (bytes : List UInt8) :
    replay m str (indexed i bytes) = writeBytes m (str + i) bytes := by
  induction bytes generalizing m i with
  | nil => rfl
  | cons c rest ih => exact ih (writeByte m (str + i) c) (i + 1)

/-- What a text adds to `pos` and to the stores. -/
theorem putAll_store (writes : target.doWrite = true) (nonnull : target.str ≠ 0)
    (fits : pos + bytes.length < wordModulus) :
    putAll (store target) ⟨pos, stores⟩ bytes =
      some ⟨pos + bytes.length,
        stores ++ indexed pos (bytes.take (u64Sub target.size 1 - pos))⟩ := by
  induction bytes generalizing pos stores with
  | nil => simp [indexed]
  | cons c rest ih =>
    simp only [List.length_cons] at fits
    have next : u64Add pos 1 = pos + 1 := u64Add_of_lt (by omega)
    rw [putAll_cons, store, Option.bind_some, next, ih (by omega)]
    simp only [writes, nonnull, ne_eq, not_false_eq_true, true_and, List.length_cons, Option.some.injEq,
      Out.mk.injEq]
    refine ⟨by omega, ?_⟩
    by_cases inside : pos < u64Sub target.size 1
    · obtain ⟨left, room⟩ := Nat.exists_eq_add_of_lt inside
      rw [if_pos inside, show u64Sub target.size 1 - pos = left + 1 by omega, List.take_succ_cons,
        indexed, show u64Sub target.size 1 - (pos + 1) = left by omega, List.append_assoc]
      rfl
    · rw [if_neg inside, show u64Sub target.size 1 - (pos + 1) = 0 by omega,
        show u64Sub target.size 1 - pos = 0 by omega]
      rfl

theorem putAll_measure (null : target.str = 0) (fits : pos + bytes.length < wordModulus) :
    putAll (store target) ⟨pos, stores⟩ bytes = some ⟨pos + bytes.length, stores⟩ := by
  induction bytes generalizing pos with
  | nil => rfl
  | cons c rest ih =>
    simp only [List.length_cons] at fits
    have next : u64Add pos 1 = pos + 1 := u64Add_of_lt (by omega)
    rw [putAll_cons, store, Option.bind_some, next]
    simp only [null, ne_eq, not_true_eq_false, false_and, and_false, if_false]
    rw [ih (by omega), List.length_cons, Nat.add_right_comm, Nat.add_assoc]

/-- No store fails, whatever the destination. -/
theorem putAll_store_total (target : Target) (out : Out) (bytes : List UInt8) :
    ∃ out', putAll (store target) out bytes = some out' := by
  induction bytes generalizing out with
  | nil => exact ⟨out, rfl⟩
  | cons c rest ih =>
    rw [putAll_cons, store, Option.bind_some]
    exact ih _

/-- vsnprintf_internal stores as much of the text as the buffer takes and a NUL,
and returns the length of all of it. -/
theorem vsnprintfInternal_items {str size : Nat} (fmt : CString) (ap : VaList) {its : List Item}
    {ap' : VaList} (nonnull : str ≠ 0) (positive : 1 ≤ size) (fits : size < wordModulus)
    (matching : items (pieces fmt) ap = some (its, ap'))
    (short : (its.flatMap Item.bufferText).length ≤ 2147483647) :
    vsnprintfInternal ⟨str, size, true⟩ fmt ap =
      some (indexed 0 ((its.flatMap Item.bufferText).take (size - 1) ++ [0]), ap',
        ((its.flatMap Item.bufferText).length : Int)) := by
  have last : u64Sub size 1 = size - 1 := u64Sub_of_le positive fits
  have run := vsnprintf_items ⟨str, size, true⟩ fmt ⟨0, []⟩ ap
  simp only [matching, Option.bind_some] at run
  generalize its.flatMap Item.bufferText = text at short run ⊢
  rw [putAll_store rfl nonnull (by unfold wordModulus; omega), last, Option.map_some, Nat.zero_add,
    List.nil_append, Nat.sub_zero] at run
  have place : (if text.length < size - 1 then text.length else size - 1) =
      (text.take (size - 1)).length := by
    rw [List.length_take]
    split <;> omega
  have size_pos : size > 0 := positive
  simp only [vsnprintfInternal, run, Option.map_some, last, nonnull, ne_eq, not_false_eq_true,
    size_pos, and_self, if_true, place]
  rw [wrapInt_of_range (by omega) (by omega), indexed_append, Nat.zero_add]
  rfl

/-- sprintf stores the texts of the items and a NUL, and returns their length. -/
theorem sprintf_items {str : Nat} (fmt : CString) (args : List VaArg) {its : List Item} {ap : VaList}
    (nonnull : str ≠ 0) (matching : items (pieces fmt) ⟨args, []⟩ = some (its, ap))
    (short : (its.flatMap Item.bufferText).length ≤ 2147483647) :
    sprintf str fmt args =
      some (indexed 0 (its.flatMap Item.bufferText ++ [0]), ap,
        ((its.flatMap Item.bufferText).length : Int)) := by
  have positive : 1 ≤ wordModulus - 1 := by decide
  have fits : wordModulus - 1 < wordModulus := by decide
  have room : (its.flatMap Item.bufferText).length ≤ wordModulus - 1 - 1 := by
    unfold wordModulus
    omega
  rw [sprintf, vsnprintfInternal_items fmt _ nonnull positive fits matching short,
    List.take_of_length_le room]

/-- Without a buffer vsnprintf_internal only measures. -/
theorem vsnprintfInternal_measures (size : Nat) (fmt : CString) (ap : VaList) {its : List Item}
    {ap' : VaList} (matching : items (pieces fmt) ap = some (its, ap'))
    (short : (its.flatMap Item.bufferText).length ≤ 2147483647) :
    vsnprintfInternal ⟨0, size, true⟩ fmt ap =
      some ([], ap', ((its.flatMap Item.bufferText).length : Int)) := by
  have run := vsnprintf_items ⟨0, size, true⟩ fmt ⟨0, []⟩ ap
  simp only [matching, Option.bind_some] at run
  generalize its.flatMap Item.bufferText = text at short run ⊢
  rw [putAll_measure rfl (by unfold wordModulus; omega), Option.map_some, Nat.zero_add] at run
  simp only [vsnprintfInternal, run, Option.map_some, ne_eq, not_true_eq_false, false_and, and_false,
    if_false]
  rw [wrapInt_of_range (by omega) (by omega)]

end AxiomeToolchain.Source.Format
