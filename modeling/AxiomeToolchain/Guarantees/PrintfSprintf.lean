import AxiomeToolchain.Library.Parts
import AxiomeToolchain.Guarantees.StdoutOrder
import AxiomeToolchain.Source.FormatStores
import AxiomeToolchain.Source.FormatWidth

/-!
# Where printf and sprintf agree

The engines make the same text of every conversion and differ in the padding:
vprintf pads numbers on the left whatever the flags say and behind the sign,
never pads %p, %c and unknown conversions, and pads strings with spaces only.
-/

set_option autoImplicit false

namespace AxiomeToolchain.Guarantees.PrintfSprintf
open AxiomeToolchain.Library.ByteMemory
open AxiomeToolchain.Library.CInt
open AxiomeToolchain.Library.Sink
open AxiomeToolchain.Library.Parts
open AxiomeToolchain.Source.Stdio
open AxiomeToolchain.Source.Format
open AxiomeToolchain.Guarantees.StdoutOrder

/-- No padding is needed, or the engines pad in the same way. -/
def PaddingAgrees : Item → Prop
  | .literal _ => True
  | .unknown d => d.width ≤ d.unknownText.length
  | .convert d arg =>
    d.width ≤ (d.text arg).length ∨
      if d.spec = 100 ∨ d.spec = 105 then d.leftAlign = false ∧ 0 ≤ arg.signed d.longflag
      else if d.spec = 117 ∨ d.spec = 120 ∨ d.spec = 88 then d.leftAlign = false
      else if d.spec = 115 then d.leftAlign = true ∨ d.zeroPad = false
      else False

variable {d : Directive} {arg : VaArg} {it : Item} {digits text : List UInt8} {n : Nat} {c : UInt8}

/-! ## Lists that cannot be equal -/

/-- Spaces behind the digits never equal padding before them. -/
theorem right_ne_left (positive : 0 < n) (nonempty : digits ≠ []) (no_space : spaceChar ∉ digits) :
    digits ++ List.replicate n spaceChar ≠ List.replicate n c ++ digits := by
  intro same
  have last := congrArg List.getLast? same
  rw [List.getLast?_append_of_ne_nil _ nonempty,
    List.getLast?_append_of_ne_nil _ (by simpa using positive.ne')] at last
  rw [List.getLast?_replicate, if_neg positive.ne'] at last
  exact no_space (List.mem_of_getLast? last.symm)

theorem pad_ne_sign (positive : 0 < n) (other : c ≠ minusChar) (rest : List UInt8) :
    List.replicate n c ++ text ≠ minusChar :: rest := by
  obtain ⟨k, rfl⟩ := Nat.exists_eq_add_one_of_ne_zero positive.ne'
  intro same
  exact other (List.cons.inj same).1

theorem left_pad_eq (positive : 0 < n) (c : UInt8) :
    List.replicate n c ++ text = List.replicate n spaceChar ++ text ↔ c = spaceChar := by
  rw [List.append_left_inj]
  constructor
  · intro same
    obtain ⟨k, rfl⟩ := Nat.exists_eq_add_one_of_ne_zero positive.ne'
    exact (List.cons.inj same).1
  · rintro rfl
    rfl

/-! ## One item -/

theorem padChar_ne_minus (d : Directive) : d.padChar ≠ minusChar := by
  unfold Directive.padChar
  split <;> decide

/-- Numbers, given that vprintf pads them on the left: the sides differ for '-' only. -/
theorem number_agrees (nonempty : text ≠ []) (no_space : spaceChar ∉ text) (n : Nat) :
    ((if d.leftAlign then text ++ List.replicate n spaceChar
        else List.replicate n d.padChar ++ text) = List.replicate n d.padChar ++ text) ↔
      n = 0 ∨ d.leftAlign = false := by
  cases d.leftAlign with
  | false => simp
  | true =>
    by_cases zero : n = 0
    · simp [zero]
    · simp only [if_true, zero, false_or, Bool.true_eq_false, iff_false]
      exact right_ne_left (Nat.pos_of_ne_zero zero) nonempty no_space

theorem negative_agrees (nonempty : digits ≠ []) (no_space : spaceChar ∉ digits) (n : Nat) :
    ((if d.leftAlign then (minusChar :: digits) ++ List.replicate n spaceChar
        else List.replicate n d.padChar ++ minusChar :: digits) =
      minusChar :: (List.replicate n d.padChar ++ digits)) ↔ n = 0 := by
  by_cases zero : n = 0
  · cases d.leftAlign <;> simp [zero]
  · have positive := Nat.pos_of_ne_zero zero
    simp only [zero, iff_false]
    cases d.leftAlign with
    | true =>
      intro same
      exact right_ne_left positive nonempty no_space (List.cons.inj same).2
    | false => exact pad_ne_sign positive (padChar_ne_minus d) _

theorem string_agrees (n : Nat) :
    ((if d.leftAlign then text ++ List.replicate n spaceChar
        else List.replicate n d.padChar ++ text) =
      if d.leftAlign then text ++ List.replicate n spaceChar
        else List.replicate n spaceChar ++ text) ↔
      n = 0 ∨ d.leftAlign = true ∨ d.zeroPad = false := by
  cases d.leftAlign with
  | true => simp
  | false =>
    by_cases zero : n = 0
    · simp [zero]
    · simp only [Bool.false_eq_true, if_false, left_pad_eq (Nat.pos_of_ne_zero zero), zero, false_or]
      unfold Directive.padChar
      cases d.zeroPad <;> decide

theorem unpadded_agrees (n : Nat) :
    ((if d.leftAlign then text ++ List.replicate n spaceChar
        else List.replicate n d.padChar ++ text) = text) ↔ n = 0 := by
  constructor
  · intro same
    have length := congrArg List.length same
    split at length <;> simp only [List.length_append, List.length_replicate] at length <;> omega
  · rintro rfl
    simp

/-- The step lemma: the engines agree on an item exactly if its padding does. -/
theorem item_agrees (fits : it.Fits) : it.stdoutText = it.bufferText ↔ PaddingAgrees it := by
  rw [eq_comm]
  have needed {d : Directive} (text : List UInt8) :
      (d.width - text.length).toNat = 0 ↔ d.width ≤ text.length := by omega
  cases it with
  | literal c => simp [Item.bufferText, Item.stdoutText, PaddingAgrees]
  | unknown d =>
    have short : d.unknownText.length ≤ 2147483647 := fits.text
    rw [Item.bufferText, Item.stdoutText, d.padded_eq fits.nonneg fits.width short, unpadded_agrees,
      needed, PaddingAgrees]
  | convert d arg =>
    have short : (d.text arg).length ≤ 2147483647 := fits.text
    rw [Item.bufferText, Item.stdoutText, d.padded_eq fits.nonneg fits.width short, PaddingAgrees,
      ← needed]
    by_cases signed : d.spec = 100 ∨ d.spec = 105
    · obtain ⟨nonempty, no_space⟩ := numeral_plain false (by decide : 1 < 10) (by decide)
        (arg.signed d.longflag).natAbs
      rw [if_pos signed]
      by_cases negative : arg.signed d.longflag < 0
      · have not_nonneg : ¬ 0 ≤ arg.signed d.longflag := by omega
        rw [stdoutText_negative fits.nonneg fits.width signed negative]
        simp only [not_nonneg, and_false, or_false]
        generalize (d.width - (d.text arg).length).toNat = n
        rw [d.text_negative signed negative]
        exact negative_agrees nonempty no_space n
      · have positive : 0 ≤ arg.signed d.longflag := by omega
        rw [stdoutText_nonneg fits.nonneg fits.width signed positive]
        simp only [positive, and_true]
        generalize (d.width - (d.text arg).length).toNat = n
        rw [d.text_nonneg signed positive]
        exact number_agrees nonempty no_space n
    rw [if_neg signed]
    by_cases unsigned : d.spec = 117 ∨ d.spec = 120 ∨ d.spec = 88
    · have plain : d.text arg ≠ [] ∧ spaceChar ∉ d.text arg := by
        rcases unsigned with u | x | upper
        · simpa [Directive.text, u] using numeral_plain false (by decide : 1 < 10) (by decide) _
        · simpa [Directive.text, x] using numeral_plain false (by decide : 1 < 16) (by decide) _
        · simpa [Directive.text, upper] using numeral_plain true (by decide : 1 < 16) (by decide) _
      rw [if_pos unsigned, stdoutText_unsigned fits.nonneg fits.width unsigned]
      exact number_agrees plain.1 plain.2 _
    rw [if_neg unsigned]
    by_cases string : d.spec = 115
    · rw [if_pos string, stdoutText_string fits.nonneg fits.width string short]
      exact string_agrees _
    · rw [if_neg string, stdoutText_other signed unsigned string, or_false]
      exact unpadded_agrees _

/-! ## Whole formats -/

theorem stdoutText_length_le (fits : it.Fits) : it.stdoutText.length ≤ it.formattedLength := by
  unfold Item.formattedLength
  cases it with
  | literal c => simp [Item.stdoutText, Item.text]
  | unknown d => exact Nat.le_max_right _ _
  | convert d arg =>
    have short : (d.text arg).length ≤ 2147483647 := fits.text
    simp only [Item.stdoutText, Item.text, Item.width]
    by_cases signed : d.spec = 100 ∨ d.spec = 105
    · by_cases negative : arg.signed d.longflag < 0
      · rw [stdoutText_negative fits.nonneg fits.width signed negative,
          d.text_negative signed negative]
        simp only [List.length_cons, List.length_append, List.length_replicate]
        omega
      · rw [stdoutText_nonneg fits.nonneg fits.width signed (by omega)]
        simp only [List.length_append, List.length_replicate]
        omega
    by_cases unsigned : d.spec = 117 ∨ d.spec = 120 ∨ d.spec = 88
    · rw [stdoutText_unsigned fits.nonneg fits.width unsigned]
      simp only [List.length_append, List.length_replicate]
      omega
    by_cases string : d.spec = 115
    · rw [stdoutText_string fits.nonneg fits.width string short]
      split <;> simp only [List.length_append, List.length_replicate] <;> omega
    · rw [stdoutText_other signed unsigned string]
      exact Nat.le_max_right _ _

/-- For matching arguments and a formatted length that fits an `int`: printf and
sprintf both return, and what printf sends to descriptor 1 is the string sprintf
leaves at `str` exactly if the padding of every directive agrees. -/
theorem printf_agrees_iff (kernel : Kernel) (full : TakesAll kernel 1) (st : State)
    (idle : st.outlen = 0) (fmt : CString) (args : List VaArg) (its : List Item) (ap : VaList)
    (matching : items (pieces fmt) ⟨args, []⟩ = some (its, ap))
    (short : formattedLength its ≤ 2147483647) (m : Memory) (str : Nat) (nonnull : str ≠ 0) :
    ∃ st' stores n, printf kernel st fmt args = some (st', ap, 0) ∧
      sprintf str fmt args = some (stores, ap, n) ∧
      replay m str stores (str + n.toNat) = 0 ∧
      (acceptedOn 1 st'.writes =
          acceptedOn 1 st.writes ++ bytesAt (replay m str stores) str n.toNat ↔
        ∀ it ∈ its, PaddingAgrees it) := by
  have fit := items_fit matching short
  have length := bufferTexts_length fit
  obtain ⟨st', run, sent, -⟩ := vprintf_sent kernel idle matching
  have stored := sprintf_items fmt args nonnull matching (length ▸ short)
  have accepted : acceptedOn 1 st'.writes =
      acceptedOn 1 st.writes ++ its.flatMap Item.stdoutText := by
    rw [sent.accepted, accepted_takesAll full, buffers_flatten, printed_eq matching]
  have agree : its.flatMap Item.stdoutText = its.flatMap Item.bufferText ↔
      ∀ it ∈ its, PaddingAgrees it := by
    rw [flatMap_eq_iff (fun it member => by
      rw [bufferText_length (fit it member)]
      exact stdoutText_length_le (fit it member))]
    exact forall₂_congr (fun it member => item_agrees (fit it member))
  generalize its.flatMap Item.bufferText = text at stored agree
  have memory : replay m str (indexed 0 (text ++ [0])) = writeBytes m str (text ++ [0]) :=
    replay_indexed m str 0 _
  have held := bytesAt_writeBytes_same (text ++ [0]) m str
  rw [List.length_append, List.length_singleton, bytesAt_add] at held
  obtain ⟨front, last⟩ := List.append_inj' held rfl
  refine ⟨st', _, _, run, stored, ?_, ?_⟩
  · rw [memory, Int.toNat_natCast]
    exact (List.cons.inj last).1
  · rw [memory, Int.toNat_natCast, front, accepted, List.append_right_inj]
    exact agree

def signedFormat : CString := ⟨ascii "%5d", by decide, by decide⟩

def minusFortyTwo : VaArg := ⟨-42, CString.empty⟩

/-- printf("%5d", -42) writes "-  42" where sprintf stores "  -42". -/
theorem printf_differs : ∃ st' ap stores,
    printf willingKernel exampleStreams signedFormat [minusFortyTwo] = some (st', ap, 0) ∧
      sprintf 4096 signedFormat [minusFortyTwo] = some (stores, ap, 5) ∧
      acceptedOn 1 st'.writes = ascii "-  42" ∧
      bytesAt (replay (fun _ => 0) 4096 stores) 4096 5 = ascii "  -42" ∧
      acceptedOn 1 st'.writes ≠ bytesAt (replay (fun _ => 0) 4096 stores) 4096 5 :=
  ⟨_, _, _, rfl, rfl, by decide, by decide, by decide⟩

def wideFormat : CString := ⟨ascii "%5u", by decide, by decide⟩

theorem printf_agrees_iff_unsigned : ∃ st' stores n,
    printf willingKernel exampleStreams wideFormat [minusFortyTwo] =
        some (st', ⟨[], [.unsignedInt]⟩, 0) ∧
      sprintf 4096 wideFormat [minusFortyTwo] = some (stores, ⟨[], [.unsignedInt]⟩, n) ∧
      replay (fun _ => 0) 4096 stores (4096 + n.toNat) = 0 ∧
      (acceptedOn 1 st'.writes =
          acceptedOn 1 exampleStreams.writes ++
            bytesAt (replay (fun _ => 0) 4096 stores) 4096 n.toNat ↔
        ∀ it ∈ [Item.convert ⟨false, false, 5, false, 117⟩ minusFortyTwo], PaddingAgrees it) :=
  printf_agrees_iff willingKernel (fun _ _ => rfl) exampleStreams rfl wideFormat [minusFortyTwo]
    [.convert ⟨false, false, 5, false, 117⟩ minusFortyTwo] ⟨[], [.unsignedInt]⟩ rfl (by decide)
    (fun _ => 0) 4096 (by decide)

end AxiomeToolchain.Guarantees.PrintfSprintf
