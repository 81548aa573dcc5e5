import AxiomeToolchain.Source.FormatComposition
import AxiomeToolchain.Source.FormatStores
import AxiomeToolchain.Source.StdioCalls

/-!
# Formatting in steps

Programs build a text with several calls: printf after printf, or snprintf at
`buf + n` with the room that is left. Both give what one call with the formats
and arguments joined gives, unless a format ends inside a directive.
-/

set_option autoImplicit false

namespace AxiomeToolchain.Guarantees.FormatComposition
open AxiomeToolchain.Library.ByteMemory
open AxiomeToolchain.Library.CInt
open AxiomeToolchain.Source.Stdio
open AxiomeToolchain.Source.Format

/-- The pieces of a format stay what they are in front of every other format
exactly if it does not end inside a directive. -/
theorem complete_iff (f : CString) (short : f.bytes.length + 1 < wordModulus) :
    Complete f ↔ ∀ (g : CString) (fits : f.bytes.length + g.bytes.length < wordModulus),
      pieces (joined f g fits) = pieces f ++ pieces g := by
  constructor
  · exact fun complete g fits => pieces_joined f g fits complete
  · intro composes
    by_contra incomplete
    have letter : (0 : UInt8) ∉ [letterD] := by decide
    have same := composes ⟨[letterD], letter, by decide⟩ short
    refine letter_swallowed (Nat.le_refl _) (Bool.eq_false_iff.mpr incomplete) ?_
    rw [pieces, joined, List.length_append] at same
    exact same

theorem complete_iff_percent :
    Complete ⟨ascii "100%", by decide, by decide⟩ ↔
      ∀ (g : CString) (fits : (ascii "100%").length + g.bytes.length < wordModulus),
        pieces (joined ⟨ascii "100%", by decide, by decide⟩ g fits) =
          pieces ⟨ascii "100%", by decide, by decide⟩ ++ pieces g :=
  complete_iff ⟨ascii "100%", by decide, by decide⟩ (by decide)

/-- A text written over the terminator of the one before it continues that one. -/
theorem append_text (m : Memory) (str : Nat) (front back : List UInt8) :
    writeBytes (writeBytes m str (front ++ [0])) (str + front.length) (back ++ [0]) =
      writeBytes m str (front ++ back ++ [0]) := by
  obtain ⟨c, rest, shape⟩ := List.exists_cons_of_ne_nil (show back ++ [0] ≠ [] by simp)
  rw [List.append_assoc, writeBytes_append front [0], writeBytes_append front, shape]
  simp only [writeBytes, writeByte, Function.update_idem]

/-- printf of `f` and then of `g` sends to stdout the bytes of one printf with
both formats and all arguments. snprintf of `f` into a buffer, and of `g` behind
the text with the room that is left, leaves the memory and, in sum, the count of
one snprintf with both; a buffer that `f` alone fills is left as that call does. -/
theorem formats_compose (f g : CString) (fits : f.bytes.length + g.bytes.length < wordModulus)
    (complete : Complete f) (args args' left : List VaArg) (log log' : List Fetch)
    (its more : List Item) (first : items (pieces f) ⟨args, []⟩ = some (its, ⟨[], log⟩))
    (second : items (pieces g) ⟨args', []⟩ = some (more, ⟨left, log'⟩)) :
    (OutputCall.printf (joined f g fits) (args ++ args')).output =
        (OutputCall.printf f args).output ++ (OutputCall.printf g args').output ∧
      ∀ (m : Memory) (str size : Nat), str ≠ 0 → 1 ≤ size → size < wordModulus →
        ((its ++ more).flatMap Item.bufferText).length ≤ 2147483647 →
        ∃ (stores both : List (Nat × UInt8)) (n total : Nat),
          snprintf str size f args = some (stores, ⟨[], log⟩, (n : Int)) ∧
          snprintf str size (joined f g fits) (args ++ args') =
            some (both, ⟨left, log ++ log'⟩, (total : Int)) ∧
          (n < size → ∃ (rest : List (Nat × UInt8)) (k : Nat),
            snprintf (str + n) (size - n) g args' = some (rest, ⟨left, log'⟩, (k : Int)) ∧
              total = n + k ∧ replay (replay m str stores) (str + n) rest = replay m str both) ∧
          (size ≤ n → both = stores) := by
  have whole := items_joined fits complete first second
  refine ⟨?_, fun m str size nonnull positive room short => ?_⟩
  · simp only [OutputCall.output, printed, whole, first, second, Option.map_some, Option.getD_some,
      List.flatMap_append]
  · rw [List.flatMap_append] at short
    have lengths : (its.flatMap Item.bufferText ++ more.flatMap Item.bufferText).length =
        (its.flatMap Item.bufferText).length + (more.flatMap Item.bufferText).length :=
      List.length_append
    have front : snprintf str size f args = _ :=
      vsnprintfInternal_items f _ nonnull positive room first (by omega)
    have all : snprintf str size (joined f g fits) (args ++ args') = _ :=
      vsnprintfInternal_items _ _ nonnull positive room whole
        (by rw [List.flatMap_append]; exact short)
    refine ⟨_, _, _, _, front, all, fun inside => ?_, fun full => ?_⟩
    · have back : snprintf (str + (its.flatMap Item.bufferText).length)
          (size - (its.flatMap Item.bufferText).length) g args' = _ :=
        vsnprintfInternal_items g _ (by omega) (by omega) (by omega) second (by omega)
      refine ⟨_, _, back, by rw [List.flatMap_append, lengths], ?_⟩
      rw [replay_indexed, replay_indexed, replay_indexed, List.flatMap_append, List.take_append,
        List.take_of_length_le (by omega), Nat.sub_right_comm]
      exact append_text m str _ _
    · rw [List.flatMap_append, List.take_append_of_le_length (by omega)]

def countFormat : CString := ⟨ascii "%d of ", by decide, by decide⟩

def totalFormat : CString := ⟨ascii "%u", by decide, by decide⟩

/-- snprintf(buf, 16, "%d of ", 15) and, with the 10 bytes behind "15 of ", "%u" of
15 leave the same as "%d of %u" at once, which counts 8. -/
theorem formats_compose_of : ∃ (stores rest both : List (Nat × UInt8)),
    snprintf 4096 16 countFormat [⟨15, CString.empty⟩] = some (stores, ⟨[], [.int]⟩, 6) ∧
      snprintf 4102 10 totalFormat [⟨15, CString.empty⟩] = some (rest, ⟨[], [.unsignedInt]⟩, 2) ∧
      snprintf 4096 16 (joined countFormat totalFormat (by decide))
        [⟨15, CString.empty⟩, ⟨15, CString.empty⟩] =
          some (both, ⟨[], [.int, .unsignedInt]⟩, 8) ∧
      replay (replay (fun _ => 0) 4096 stores) 4102 rest = replay (fun _ => 0) 4096 both := by
  obtain ⟨-, steps⟩ := formats_compose countFormat totalFormat (by decide) (by decide)
    [⟨15, CString.empty⟩] [⟨15, CString.empty⟩] [] [.int] [.unsignedInt] _ _ rfl rfl
  obtain ⟨stores, both, n, total, front, whole, inside, -⟩ :=
    steps (fun _ => 0) 4096 16 (by decide) (by decide) (by decide) (by decide)
  have count : (snprintf 4096 16 countFormat [⟨15, CString.empty⟩]).map (fun r => r.2.2) =
      some 6 := by decide
  rw [front, Option.map_some, Option.some.injEq] at count
  obtain rfl : n = 6 := Int.ofNat_inj.mp count
  obtain ⟨rest, k, back, sum, same⟩ := inside (by decide)
  have more : (snprintf 4102 10 totalFormat [⟨15, CString.empty⟩]).map (fun r => r.2.2) =
      some 2 := by decide
  rw [back, Option.map_some, Option.some.injEq] at more
  obtain rfl : k = 2 := Int.ofNat_inj.mp more
  subst sum
  exact ⟨stores, rest, both, front, back, whole, same⟩

end AxiomeToolchain.Guarantees.FormatComposition
