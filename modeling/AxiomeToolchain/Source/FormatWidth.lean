import AxiomeToolchain.Source.FormatNumeral

/-!
# Padding without overflow

The formatted length counts every directive at its width or the length of its
text, whichever is larger. When it is an `int`, so is every width and length,
and the texts of both engines are given by plain subtraction.
-/

set_option autoImplicit false

namespace AxiomeToolchain.Source.Format
open AxiomeToolchain.Library.CInt
open AxiomeToolchain.Source.Stdio

/-- The text of an item without padding. -/
def Item.text : Item → List UInt8
  | .literal c => [c]
  | .convert d arg => d.text arg
  | .unknown d => d.unknownText

def Item.width : Item → Int
  | .literal _ => 0
  | .convert d _ | .unknown d => d.width

/-- How long the item is with its padding. -/
def Item.formattedLength (it : Item) : Nat := max it.width.toNat it.text.length

def formattedLength (its : List Item) : Nat := (its.map Item.formattedLength).sum

variable {d : Directive} {s rest : List UInt8} {budget : Nat} {its : List Item} {it : Item}

/-! ## Widths are not negative -/

theorem decimalFrom_nonneg {digits : List UInt8} {start : Int} (nonneg : 0 ≤ start)
    (all : ∀ c ∈ digits, isDigit c = true) : 0 ≤ decimalFrom start digits :=
  Int.le_trans nonneg (decimalFrom_ge nonneg all)

theorem parseDirective_width (found : parseDirective s = some (d, rest)) : 0 ≤ d.width := by
  simp only [parseDirective] at found
  split at found
  · cases found
  · cases found
    exact decimalFrom_nonneg (Int.le_refl 0) (List.all_eq_true.mp List.all_takeWhile)

theorem piecesWithin_width : ∀ d, .directive d ∈ piecesWithin budget s → 0 ≤ d.width := by
  induction budget generalizing s with
  | zero => simp [piecesWithin]
  | succ budget ih =>
    intro d member
    cases s with
    | nil => simp [piecesWithin] at member
    | cons c s =>
      rw [piecesWithin] at member
      split at member
      · exact ih d (by simpa using member)
      split at member
      · simp at member
      split at member
      · exact ih d (by simpa using member)
      · cases found : parseDirective s with
        | none => simp [found] at member
        | some result =>
          obtain ⟨first, rest⟩ := result
          simp only [found, List.mem_cons, Piece.directive.injEq] at member
          rcases member with rfl | later
          · exact parseDirective_width found
          · exact ih d later

theorem items_width {ps : List Piece} {ap ap' : VaList}
    (widths : ∀ d, .directive d ∈ ps → 0 ≤ d.width) (found : items ps ap = some (its, ap')) :
    ∀ it ∈ its, 0 ≤ it.width := by
  induction ps generalizing its ap with
  | nil =>
    cases found
    simp
  | cons piece ps ih =>
    have later : ∀ d, .directive d ∈ ps → 0 ≤ d.width :=
      fun d member => widths d (List.mem_cons_of_mem piece member)
    cases piece with
    | literal c =>
      obtain ⟨⟨tail, last⟩, rest_found, same⟩ := Option.map_eq_some_iff.mp found
      cases same
      exact List.forall_mem_cons.mpr ⟨Int.le_refl 0, ih later rest_found⟩
    | directive d =>
      have width := widths d List.mem_cons_self
      rw [items] at found
      split at found
      · obtain ⟨⟨tail, last⟩, rest_found, same⟩ := Option.map_eq_some_iff.mp found
        cases same
        exact List.forall_mem_cons.mpr ⟨width, ih later rest_found⟩
      · obtain ⟨⟨arg, ap⟩, -, mapped⟩ := Option.bind_eq_some_iff.mp found
        obtain ⟨⟨tail, last⟩, rest_found, same⟩ := Option.map_eq_some_iff.mp mapped
        cases same
        exact List.forall_mem_cons.mpr ⟨width, ih later rest_found⟩

/-! ## The texts of one item -/

/-- Width and text of the item fit an `int`. -/
structure Item.Fits (it : Item) : Prop where
  nonneg : 0 ≤ it.width
  width : it.width ≤ intMax
  text : it.text.length ≤ 2147483647

theorem fits_of_short (nonneg : 0 ≤ it.width) (short : it.formattedLength ≤ 2147483647) :
    it.Fits where
  nonneg := nonneg
  width := by
    unfold Item.formattedLength at short
    unfold intMax
    omega
  text := by
    unfold Item.formattedLength at short
    omega

theorem items_fit {fmt : CString} {ap ap' : VaList} (found : items (pieces fmt) ap = some (its, ap'))
    (short : formattedLength its ≤ 2147483647) : ∀ it ∈ its, it.Fits := by
  intro it member
  have part : it.formattedLength ≤ formattedLength its :=
    List.le_sum_of_mem (List.mem_map_of_mem member)
  exact fits_of_short (items_width piecesWithin_width found it member) (Nat.le_trans part short)

theorem padding_eq {width : Int} {len : Nat} (c : UInt8) (nonneg : 0 ≤ width)
    (fits : width ≤ intMax) : padding width len c = List.replicate (width - len).toNat c := by
  unfold intMax at fits
  unfold padding
  split
  · rw [wrapInt_of_range (by omega) (by omega), countdown]
    congr 1
    omega
  · rw [show (width - len).toNat = 0 by omega]
    rfl

theorem uintText_eq {width : Int} {digits : List UInt8} (zeroPad : Bool) (nonneg : 0 ≤ width)
    (fits : width ≤ intMax) (short : digits.length ≤ 24) :
    uintText digits width zeroPad =
      List.replicate (width - digits.length).toNat (if zeroPad then zeroChar else spaceChar) ++
        digits := by
  unfold intMax at fits
  have count : wrapInt (width - digits.length) = width - digits.length :=
    wrapInt_of_range (by omega) (by omega)
  simp only [uintText, count]
  by_cases positive : width - digits.length > 0
  · have rounds : countdown (width - digits.length) = (width - digits.length).toNat := by
      unfold countdown
      omega
    rw [if_pos positive, rounds]
  · rw [if_neg positive, show (width - digits.length).toNat = 0 by omega]
    rfl

/-- The pad character for `zero_pad ? '0' : ' '`. -/
def Directive.padChar (d : Directive) : UInt8 := if d.zeroPad then zeroChar else spaceChar

theorem Directive.padded_eq {text : List UInt8} (nonneg : 0 ≤ d.width) (fits : d.width ≤ intMax)
    (short : text.length ≤ 2147483647) :
    d.stored.padded (wrapInt text.length) text =
      if d.leftAlign then text ++ List.replicate (d.width - text.length).toNat spaceChar
      else List.replicate (d.width - text.length).toNat d.padChar ++ text := by
  have width : wrapInt d.width = d.width := wrapInt_of_range (by omega) fits
  have len : wrapInt text.length = text.length := wrapInt_of_range (by omega) (by omega)
  simp only [Directive.padded, Directive.stored_width, Directive.stored_leftAlign,
    Directive.stored_zeroPad, width, len, padding_eq _ nonneg fits, Int.toNat_natCast,
    List.take_length, Directive.padChar]
  rfl

theorem Directive.text_nonneg {arg : VaArg} (spec : d.spec = 100 ∨ d.spec = 105)
    (nonneg : 0 ≤ arg.signed d.longflag) :
    d.text arg = numeral false 10 (arg.signed d.longflag).natAbs := by
  simp only [Directive.text, if_pos spec, if_neg (not_lt.mpr nonneg), List.nil_append]

theorem Directive.text_negative {arg : VaArg} (spec : d.spec = 100 ∨ d.spec = 105)
    (negative : arg.signed d.longflag < 0) :
    d.text arg = minusChar :: numeral false 10 (arg.signed d.longflag).natAbs := by
  simp only [Directive.text, if_pos spec, if_pos negative, List.singleton_append]

theorem digitOf_ne_space (upper : Bool) (i : Nat) (small : i < 16) :
    digitOf upper i ≠ spaceChar := by
  cases upper <;> interval_cases i <;> decide

theorem numeral_plain {base : Nat} (upper : Bool) (two : 1 < base) (small : base ≤ 16) (v : Nat) :
    numeral upper base v ≠ [] ∧ spaceChar ∉ numeral upper base v := by
  unfold numeral
  split
  · decide
  · next nonzero =>
    refine ⟨by simpa using Nat.digits_ne_nil_iff_ne_zero.mpr nonzero, fun member => ?_⟩
    obtain ⟨i, digit, same⟩ := List.mem_map.mp (List.mem_reverse.mp member)
    have bound := Nat.digits_lt_base two digit
    exact digitOf_ne_space upper i (by omega) same

theorem numeral_nonempty {base : Nat} (upper : Bool) (two : 1 < base) (small : base ≤ 16) (v : Nat) :
    0 < (numeral upper base v).length :=
  List.length_pos_of_ne_nil (numeral_plain upper two small v).1

/-- Every conversion but %s gives some characters, and not many. -/
theorem text_short (d : Directive) (arg : VaArg) (not_string : d.spec ≠ 115) :
    0 < (d.text arg).length ∧ (d.text arg).length ≤ 26 := by
  have value := arg.unsigned_lt d.longflag
  have word : arg.word.toNat < wordModulus := arg.word.isLt
  obtain ⟨low, high⟩ := arg.signed_range d.longflag
  unfold Directive.text
  split
  · have digits := numeral_nonempty false (by decide : 1 < 10) (by decide)
      (arg.signed d.longflag).natAbs
    refine ⟨?_, signedText_length low high⟩
    rw [List.length_append]
    omega
  split
  · have length := numeral_length_le false (Nat.le_refl 10) value
    exact ⟨numeral_nonempty false (by decide) (by decide) _, by omega⟩
  split
  · have length := numeral_length_le false (by decide : 10 ≤ 16) value
    exact ⟨numeral_nonempty false (by decide) (by decide) _, by omega⟩
  split
  · have length := numeral_length_le true (by decide : 10 ≤ 16) value
    exact ⟨numeral_nonempty true (by decide) (by decide) _, by omega⟩
  split
  · have length := numeral_length_le false (by decide : 10 ≤ 16) word
    have prefix_length : (ascii "0x").length = 2 := by decide
    rw [List.length_append, prefix_length]
    omega
  · exact ⟨Nat.zero_lt_one, by simp⟩

theorem bufferText_length (fits : it.Fits) : it.bufferText.length = it.formattedLength := by
  unfold Item.formattedLength
  cases it with
  | literal c => simp [Item.bufferText, Item.width, Item.text]
  | unknown d =>
    have nonneg : 0 ≤ d.width := fits.nonneg
    have short : d.unknownText.length ≤ 2147483647 := fits.text
    rw [Item.bufferText, d.padded_eq fits.nonneg fits.width short]
    simp only [Item.text, Item.width]
    split <;> simp only [List.length_append, List.length_replicate] <;> omega
  | convert d arg =>
    have nonneg : 0 ≤ d.width := fits.nonneg
    have short : (d.text arg).length ≤ 2147483647 := fits.text
    rw [Item.bufferText, d.padded_eq fits.nonneg fits.width short]
    simp only [Item.text, Item.width]
    split <;> simp only [List.length_append, List.length_replicate] <;> omega

theorem bufferTexts_length {its : List Item} (fit : ∀ it ∈ its, it.Fits) :
    (its.flatMap Item.bufferText).length = formattedLength its := by
  rw [List.length_flatMap, formattedLength]
  congr 1
  exact List.map_congr_left (fun it member => bufferText_length (fit it member))

section Stdout
variable {arg : VaArg} (nonneg : 0 ≤ d.width) (fits : d.width ≤ intMax)
include nonneg fits

theorem stdoutText_unsigned (spec : d.spec = 117 ∨ d.spec = 120 ∨ d.spec = 88) :
    d.stored.stdoutText arg =
      List.replicate (d.width - (d.text arg).length).toNat d.padChar ++ d.text arg := by
  have width : wrapInt d.width = d.width := wrapInt_of_range (by omega) fits
  have not_signed : ¬ (d.spec = 100 ∨ d.spec = 105) := by
    rcases spec with u | x | upper <;> simp [*]
  have value := arg.unsigned_lt d.longflag
  have short : (d.text arg).length ≤ 24 := by
    rcases spec with u | x | upper
    · simpa [Directive.text, u] using numeral_length_le false (Nat.le_refl 10) value
    · simpa [Directive.text, x] using numeral_length_le false (by decide : 10 ≤ 16) value
    · simpa [Directive.text, upper] using numeral_length_le true (by decide : 10 ≤ 16) value
  have same_text : d.stored.text arg = d.text arg := rfl
  simp only [Directive.stdoutText, Directive.stored_spec, Directive.stored_width,
    Directive.stored_zeroPad, same_text, not_signed, spec, if_true, if_false, width,
    uintText_eq d.zeroPad nonneg fits short, Directive.padChar]

theorem stdoutText_nonneg (spec : d.spec = 100 ∨ d.spec = 105)
    (positive : 0 ≤ arg.signed d.longflag) :
    d.stored.stdoutText arg =
      List.replicate (d.width - (d.text arg).length).toNat d.padChar ++ d.text arg := by
  have width : wrapInt d.width = d.width := wrapInt_of_range (by omega) fits
  have not_negative : ¬ arg.signed d.longflag < 0 := by omega
  obtain ⟨low, high⟩ := arg.signed_range d.longflag
  have short := numeral_length_le false (Nat.le_refl 10) (natAbs_lt low high)
  rw [d.text_nonneg spec positive]
  simp only [Directive.stdoutText, Directive.stored_spec, Directive.stored_width,
    Directive.stored_zeroPad, Directive.stored_longflag, spec, not_negative, if_true, if_false, width,
    uintText_eq d.zeroPad nonneg fits short, Directive.padChar]

theorem stdoutText_negative (spec : d.spec = 100 ∨ d.spec = 105)
    (negative : arg.signed d.longflag < 0) :
    d.stored.stdoutText arg =
      minusChar :: (List.replicate (d.width - (d.text arg).length).toNat d.padChar ++
        numeral false 10 (arg.signed d.longflag).natAbs) := by
  have width : wrapInt d.width = d.width := wrapInt_of_range (by omega) fits
  obtain ⟨low, high⟩ := arg.signed_range d.longflag
  have short := numeral_length_le false (Nat.le_refl 10) (natAbs_lt low high)
  -- One column of the width is taken by the sign.
  have reduced_nonneg : 0 ≤ if d.width > 0 then d.width - 1 else d.width := by split <;> omega
  have reduced_fits : (if d.width > 0 then d.width - 1 else d.width) ≤ intMax := by split <;> omega
  have reduced := uintText_eq d.zeroPad reduced_nonneg reduced_fits short
  rw [d.text_negative spec negative, List.length_cons]
  simp only [Directive.stdoutText, Directive.stored_spec, Directive.stored_width,
    Directive.stored_zeroPad, Directive.stored_longflag, spec, negative, if_true, width, reduced,
    Directive.padChar]
  congr 3
  split <;> omega

theorem stdoutText_string (spec : d.spec = 115) (short : (d.text arg).length ≤ 2147483647) :
    d.stored.stdoutText arg =
      if d.leftAlign then
        d.text arg ++ List.replicate (d.width - (d.text arg).length).toNat spaceChar
      else List.replicate (d.width - (d.text arg).length).toNat spaceChar ++ d.text arg := by
  have width : wrapInt d.width = d.width := wrapInt_of_range (by omega) fits
  have len : wrapInt (d.text arg).length = (d.text arg).length := wrapInt_of_range (by omega) (by omega)
  have same_text : d.stored.text arg = d.text arg := rfl
  have not_number : ¬ (d.spec = 100 ∨ d.spec = 105) ∧
      ¬ (d.spec = 117 ∨ d.spec = 120 ∨ d.spec = 88) := by simp [spec]
  simp only [Directive.stdoutText, Directive.stored_spec, Directive.stored_width,
    Directive.stored_leftAlign, same_text, not_number.1, not_number.2, if_false, width, len,
    padding_eq _ nonneg fits]
  simp only [spec, if_true]

end Stdout

/-- vprintf never pads the other conversions. -/
theorem stdoutText_other {arg : VaArg} (not_signed : ¬ (d.spec = 100 ∨ d.spec = 105))
    (not_unsigned : ¬ (d.spec = 117 ∨ d.spec = 120 ∨ d.spec = 88)) (not_string : ¬ d.spec = 115) :
    d.stored.stdoutText arg = d.text arg := by
  have same_text : d.stored.text arg = d.text arg := rfl
  simp only [Directive.stdoutText, Directive.stored_spec, not_signed, not_unsigned, not_string,
    if_false, same_text]

end AxiomeToolchain.Source.Format
