import AxiomeToolchain.Source.FormatNumeral
import AxiomeToolchain.Source.FormatStores
import AxiomeToolchain.Source.FormatWidth

/-!
# Integer directives against C

A directive of flags, a width, an optional 'l' and one of d, i, u, x, X. The
padding of vsnprintf_internal goes before the whole text, sign included, so
zeros land before the sign; emit_int_width keeps them behind it.
-/

set_option autoImplicit false

namespace AxiomeToolchain.Guarantees.IntegerRendering
open AxiomeToolchain.Library.CInt
open AxiomeToolchain.Source.Stdio
open AxiomeToolchain.Source.Format

/-- What the directive is written from; a zero before the width is a flag. -/
structure IntegerDirective where
  flags : List UInt8
  flags_ok : ∀ c ∈ flags, c = minusChar ∨ c = zeroChar
  width : Nat
  width_fits : width ≤ 2147483647
  long : Bool
  spec : UInt8
  spec_ok : spec = 100 ∨ spec = 105 ∨ spec = 117 ∨ spec = 120 ∨ spec = 88

namespace IntegerDirective

def widthDigits (d : IntegerDirective) : List UInt8 :=
  if d.width = 0 then [] else numeral false 10 d.width

/-- The modifier and the conversion. -/
def ending (d : IntegerDirective) : List UInt8 := (if d.long then [108] else []) ++ [d.spec]

/-- The directive behind its '%'. -/
def written (d : IntegerDirective) : List UInt8 := d.flags ++ (d.widthDigits ++ d.ending)

def signed (d : IntegerDirective) : Prop := d.spec = 100 ∨ d.spec = 105

instance (d : IntegerDirective) : Decidable d.signed := inferInstanceAs (Decidable (_ ∨ _))

def negative (d : IntegerDirective) (arg : VaArg) : Prop := d.signed ∧ arg.signed d.long < 0

instance (d : IntegerDirective) (arg : VaArg) : Decidable (d.negative arg) :=
  inferInstanceAs (Decidable (_ ∧ _))

/-- The value without its sign, in base 10 or 16. -/
def digits (d : IntegerDirective) (arg : VaArg) : List UInt8 :=
  if d.signed then numeral false 10 (arg.signed d.long).natAbs
  else if d.spec = 117 then numeral false 10 (arg.unsigned d.long)
  else numeral (d.spec = 88) 16 (arg.unsigned d.long)

def sign (d : IntegerDirective) (arg : VaArg) : List UInt8 :=
  if d.negative arg then [minusChar] else []

def unpadded (d : IntegerDirective) (arg : VaArg) : List UInt8 := d.sign arg ++ d.digits arg

/-- The text that C asks for. -/
def rendering (d : IntegerDirective) (arg : VaArg) : List UInt8 :=
  let missing := d.width - (d.unpadded arg).length
  if minusChar ∈ d.flags then d.unpadded arg ++ List.replicate missing spaceChar
  else if zeroChar ∈ d.flags then d.sign arg ++ List.replicate missing zeroChar ++ d.digits arg
  else List.replicate missing spaceChar ++ d.unpadded arg

/-- Zeros are asked for in front of a negative number. -/
def ZerosBeforeSign (d : IntegerDirective) (arg : VaArg) : Prop :=
  zeroChar ∈ d.flags ∧ minusChar ∉ d.flags ∧ d.negative arg ∧ (d.unpadded arg).length < d.width

end IntegerDirective

/-- Into a buffer of any size goes the C rendering, as far as it fits, and its
whole length is returned. -/
structure RendersAsC (d : IntegerDirective) (fmt : CString) (arg : VaArg) : Prop where
  stored : ∀ str size, str ≠ 0 → 1 ≤ size → size < wordModulus → ∃ ap,
    vsnprintfInternal ⟨str, size, true⟩ fmt ⟨[arg], []⟩ =
      some (indexed 0 ((d.rendering arg).take (size - 1) ++ [0]), ap, ((d.rendering arg).length : Int))
  length : (d.rendering arg).length = max d.width (d.unpadded arg).length

variable {d : IntegerDirective} {arg : VaArg}

/-! ## The directive is read as it is written -/

theorem span_all (test : UInt8 → Bool) {xs ys : List UInt8} (all : ∀ c ∈ xs, test c = true)
    (stop : ∀ c ∈ ys.head?, test c = false) :
    (xs ++ ys).takeWhile test = xs ∧ (xs ++ ys).dropWhile test = ys := by
  rw [List.takeWhile_append_of_pos all, List.dropWhile_append_of_pos all]
  cases ys with
  | nil => simp
  | cons c rest =>
    have stops := stop c rfl
    simp [stops]

theorem spec_plain (d : IntegerDirective) :
    isFlag d.spec = false ∧ isDigit d.spec = false ∧ isLength d.spec = false ∧ d.spec ≠ 46 ∧
      d.spec ≠ percentChar := by
  rcases d.spec_ok with spec | spec | spec | spec | spec <;> rw [spec] <;> decide

theorem ending_head (d : IntegerDirective) :
    ∃ c rest, d.ending = c :: rest ∧ isFlag c = false ∧ isDigit c = false ∧ c ≠ 46 ∧
      c ≠ percentChar := by
  obtain ⟨flag, digit, -, dot, percent⟩ := spec_plain d
  unfold IntegerDirective.ending
  split
  · exact ⟨108, [d.spec], rfl, by decide⟩
  · exact ⟨d.spec, [], rfl, flag, digit, dot, percent⟩

theorem flag_of_digit {c : UInt8} (digit : isDigit c = true) (nonzero : c ≠ zeroChar) :
    isFlag c = false ∧ c ≠ percentChar := by
  have not_minus : c ≠ minusChar := by
    rintro rfl
    exact absurd digit (by decide)
  have not_percent : c ≠ percentChar := by
    rintro rfl
    exact absurd digit (by decide)
  simp [isFlag, nonzero, not_minus, not_percent]

/-- What follows the flags does not start with one. -/
theorem width_head (d : IntegerDirective) :
    ∃ c rest, d.widthDigits ++ d.ending = c :: rest ∧ isFlag c = false ∧ c ≠ percentChar := by
  unfold IntegerDirective.widthDigits
  split
  · obtain ⟨c, rest, found, flag, -, -, percent⟩ := ending_head d
    exact ⟨c, rest, found, flag, percent⟩
  · next nonzero =>
    obtain ⟨c, rest, found, no_zero, digit⟩ := numeral_head nonzero
    obtain ⟨flag, percent⟩ := flag_of_digit digit no_zero
    exact ⟨c, rest ++ d.ending, by rw [found, List.cons_append], flag, percent⟩

theorem written_head (d : IntegerDirective) :
    ∃ c rest, d.written = c :: rest ∧ c ≠ percentChar := by
  unfold IntegerDirective.written
  cases flags : d.flags with
  | nil =>
    obtain ⟨c, rest, found, -, percent⟩ := width_head d
    exact ⟨c, rest, found, percent⟩
  | cons c rest =>
    refine ⟨c, _, rfl, ?_⟩
    have flag := d.flags_ok c (flags ▸ List.mem_cons_self)
    rcases flag with rfl | rfl <;> decide

theorem widthDigits_value (d : IntegerDirective) : decimalFrom 0 d.widthDigits = d.width := by
  unfold IntegerDirective.widthDigits
  split
  · next zero =>
    rw [zero]
    rfl
  · exact decimalFrom_numeral d.width

/-- The directive the scanner makes of it. -/
def scanned (d : IntegerDirective) : Directive :=
  ⟨d.flags.contains minusChar, d.flags.contains zeroChar, d.width, d.long, d.spec⟩

theorem parseDirective_written (d : IntegerDirective) :
    parseDirective d.written = some (scanned d, []) := by
  obtain ⟨c, rest, width_start, no_flag, -⟩ := width_head d
  obtain ⟨e, tail, ending_start, -, no_digit, no_dot, -⟩ := ending_head d
  obtain ⟨-, -, no_length, -, -⟩ := spec_plain d
  have all_flags : ∀ c ∈ d.flags, isFlag c = true := by
    intro c member
    rcases d.flags_ok c member with rfl | rfl <;> decide
  have all_digits : ∀ c ∈ d.widthDigits, isDigit c = true := by
    unfold IntegerDirective.widthDigits
    split
    · exact List.forall_mem_nil _
    · exact numeral_isDigit d.width
  have width_stops : ∀ c ∈ (d.widthDigits ++ d.ending).head?, isFlag c = false := by
    simpa [width_start] using no_flag
  have ending_stops : ∀ c ∈ d.ending.head?, isDigit c = false := by
    simpa [ending_start] using no_digit
  obtain ⟨flags_taken, flags_dropped⟩ := span_all isFlag all_flags width_stops
  obtain ⟨width_taken, width_dropped⟩ := span_all isDigit all_digits ending_stops
  have precision : skipPrecision d.ending = d.ending := by
    rw [ending_start, skipPrecision, if_neg no_dot]
  have modifiers : d.ending.takeWhile isLength = (if d.long then [108] else []) ∧
      d.ending.dropWhile isLength = [d.spec] := by
    apply span_all
    · split <;> simp [isLength]
    · simpa using no_length
  have long : (!(if d.long then [(108 : UInt8)] else []).isEmpty) = d.long := by
    cases d.long <;> rfl
  simp only [parseDirective, IntegerDirective.written, flags_taken, flags_dropped, width_taken,
    width_dropped, precision, modifiers.1, modifiers.2, widthDigits_value, long, scanned]

theorem pieces_written {fmt : CString} (source : fmt.bytes = percentChar :: d.written) :
    pieces fmt = [.directive (scanned d)] := by
  obtain ⟨c, rest, found, no_percent⟩ := written_head d
  have nonempty : d.written ≠ [] := by simp [found]
  have head : ¬ d.written.head? = some percentChar := by simp [found, no_percent]
  have nothing (budget : Nat) : piecesWithin budget [] = [] := by cases budget <;> rfl
  have starts : ¬ percentChar ≠ percentChar := not_not.mpr rfl
  rw [pieces, source, List.length_cons, piecesWithin, if_neg starts, if_neg nonempty, if_neg head,
    parseDirective_written]
  simp only [nothing]

/-! ## What is produced -/

theorem scanned_fetch (d : IntegerDirective) : ∃ type, (scanned d).fetch = some type := by
  unfold Directive.fetch scanned
  rcases d.spec_ok with spec | spec | spec | spec | spec <;> simp [spec]

theorem scanned_text (d : IntegerDirective) (arg : VaArg) : (scanned d).text arg = d.unpadded arg := by
  unfold Directive.text IntegerDirective.unpadded IntegerDirective.sign IntegerDirective.digits
    IntegerDirective.negative IntegerDirective.signed scanned
  rcases d.spec_ok with spec | spec | spec | spec | spec <;> simp [spec]

/-- The padding stage on the whole text. -/
def produced (d : IntegerDirective) (arg : VaArg) : List UInt8 :=
  let missing := d.width - (d.unpadded arg).length
  if minusChar ∈ d.flags then d.unpadded arg ++ List.replicate missing spaceChar
  else List.replicate missing (if zeroChar ∈ d.flags then zeroChar else spaceChar) ++ d.unpadded arg

theorem unpadded_short (d : IntegerDirective) (arg : VaArg) : (d.unpadded arg).length ≤ 26 := by
  have no_string : d.spec ≠ 115 := by
    rcases d.spec_ok with spec | spec | spec | spec | spec <;> rw [spec] <;> decide
  rw [← scanned_text]
  exact (text_short (scanned d) arg no_string).2

theorem bufferText_produced (d : IntegerDirective) (arg : VaArg) :
    (Item.convert (scanned d) arg).bufferText = produced d arg := by
  have short := unpadded_short d arg
  have fits := d.width_fits
  have nonneg : 0 ≤ (scanned d).width := Int.natCast_nonneg d.width
  have fits_int : (scanned d).width ≤ intMax := Int.ofNat_le.mpr fits
  have missing : ((d.width : Int) - (d.unpadded arg).length).toNat =
      d.width - (d.unpadded arg).length := by omega
  rw [Item.bufferText, scanned_text, Directive.padded_eq nonneg fits_int (by omega)]
  simp only [scanned, missing, produced, Directive.padChar, List.contains_iff_mem]

theorem produced_length (d : IntegerDirective) (arg : VaArg) :
    (produced d arg).length = max d.width (d.unpadded arg).length := by
  unfold produced
  split <;> simp only [List.length_append, List.length_replicate] <;> omega

theorem rendering_length (d : IntegerDirective) (arg : VaArg) :
    (d.rendering arg).length = max d.width (d.unpadded arg).length := by
  unfold IntegerDirective.rendering
  have parts : (d.unpadded arg).length = (d.sign arg).length + (d.digits arg).length :=
    List.length_append
  split
  · simp only [List.length_append, List.length_replicate]
    omega
  split <;> simp only [List.length_append, List.length_replicate] <;> omega

theorem vsnprintf_produced {fmt : CString} (source : fmt.bytes = percentChar :: d.written)
    (arg : VaArg) : ∃ ap, ∀ str size, str ≠ 0 → 1 ≤ size → size < wordModulus →
      vsnprintfInternal ⟨str, size, true⟩ fmt ⟨[arg], []⟩ =
        some (indexed 0 ((produced d arg).take (size - 1) ++ [0]), ap,
          ((produced d arg).length : Int)) := by
  obtain ⟨type, fetch⟩ := scanned_fetch d
  have matching : items (pieces fmt) ⟨[arg], []⟩ =
      some ([.convert (scanned d) arg], ⟨[], [type]⟩) := by
    rw [pieces_written source, items, fetch]
    rfl
  have output : [Item.convert (scanned d) arg].flatMap Item.bufferText = produced d arg := by
    rw [List.flatMap_singleton, bufferText_produced]
  have fits := d.width_fits
  have short := unpadded_short d arg
  have length := produced_length d arg
  refine ⟨⟨[], [type]⟩, fun str size nonnull positive bounded => ?_⟩
  rw [← output] at length ⊢
  exact vsnprintfInternal_items fmt _ nonnull positive bounded matching (by omega)

/-- The step lemma: the two texts differ only where zeros belong behind a sign. -/
theorem produced_eq_iff (d : IntegerDirective) (arg : VaArg) :
    produced d arg = d.rendering arg ↔ ¬ d.ZerosBeforeSign arg := by
  unfold produced IntegerDirective.rendering IntegerDirective.ZerosBeforeSign
  by_cases left : minusChar ∈ d.flags
  · simp [left]
  by_cases zero : zeroChar ∈ d.flags
  · simp only [left, not_false_eq_true, zero, true_and, not_and, not_lt]
    by_cases negative : d.negative arg
    · have sign : d.sign arg = [minusChar] := if_pos negative
      simp only [negative, forall_const]
      have text : d.unpadded arg = minusChar :: d.digits arg := by
        rw [IntegerDirective.unpadded, sign, List.singleton_append]
      rw [sign]
      constructor
      · intro same
        by_contra longer
        obtain ⟨k, missing⟩ := Nat.exists_eq_add_one_of_ne_zero
          (show d.width - (d.unpadded arg).length ≠ 0 by omega)
        rw [missing, List.replicate_succ] at same
        exact absurd (List.cons.inj same).1 (by decide)
      · intro enough
        rw [Nat.sub_eq_zero_of_le enough, text]
        rfl
    · have sign : d.sign arg = [] := if_neg negative
      simp [negative, IntegerDirective.unpadded, sign]
  · simp [left, zero]

theorem indexed_bytes (i : Nat) (bytes : List UInt8) : (indexed i bytes).map Prod.snd = bytes := by
  induction bytes generalizing i with
  | nil => rfl
  | cons c rest ih => rw [indexed, List.map_cons, ih]

/-- For all flags, widths, values and conversions: vsnprintf_internal renders the
directive as C does exactly if it does not pad a negative number with zeros. -/
theorem renders_iff (d : IntegerDirective) (fmt : CString)
    (source : fmt.bytes = percentChar :: d.written) (arg : VaArg) :
    RendersAsC d fmt arg ↔ ¬ d.ZerosBeforeSign arg := by
  obtain ⟨ap, run⟩ := vsnprintf_produced source arg
  rw [← produced_eq_iff]
  constructor
  · intro renders
    have fits := d.width_fits
    have short := unpadded_short d arg
    have length := produced_length d arg
    have same_length := rendering_length d arg
    -- A buffer with room for all of it.
    have room : (produced d arg).length + 1 < wordModulus := by
      unfold wordModulus
      omega
    obtain ⟨ap', stored⟩ := renders.stored 1 _ Nat.one_ne_zero (Nat.le_add_left 1 _) room
    rw [run 1 _ Nat.one_ne_zero (Nat.le_add_left 1 _) room, Nat.add_sub_cancel, List.take_length,
      List.take_of_length_le (by omega)] at stored
    have bytes := congrArg (List.map Prod.snd) (congrArg Prod.fst (Option.some.inj stored))
    rw [indexed_bytes, indexed_bytes] at bytes
    exact List.append_cancel_right bytes
  · intro same
    refine ⟨fun str size nonnull positive bounded => ?_, rendering_length d arg⟩
    rw [← same]
    exact ⟨ap, run str size nonnull positive bounded⟩

/-- %05d -/
def zeroPadded : IntegerDirective where
  flags := [zeroChar]
  flags_ok := by simp
  width := 5
  width_fits := by decide
  long := false
  spec := 100
  spec_ok := .inl rfl

def zeroPaddedFormat : CString := ⟨ascii "%05d", by decide, by decide⟩

def minusFortyTwo : VaArg := ⟨-42, CString.empty⟩

/-- vsnprintf of "%05d" with -42 stores "00-42" where C has "-0042". -/
theorem zeros_before_sign :
    vsnprintfInternal ⟨4096, 64, true⟩ zeroPaddedFormat ⟨[minusFortyTwo], []⟩ =
        some (indexed 0 (ascii "00-42" ++ [0]), ⟨[], [.int]⟩, 5) ∧
      zeroPadded.rendering minusFortyTwo = ascii "-0042" ∧
      ¬ ∀ (d : IntegerDirective) (fmt : CString) (arg : VaArg),
        fmt.bytes = percentChar :: d.written → RendersAsC d fmt arg := by
  have run : vsnprintfInternal ⟨4096, 64, true⟩ zeroPaddedFormat ⟨[minusFortyTwo], []⟩ =
      some (indexed 0 (ascii "00-42" ++ [0]), ⟨[], [.int]⟩, 5) := rfl
  have asked : zeroPadded.rendering minusFortyTwo = ascii "-0042" := by decide
  refine ⟨run, asked, fun all => ?_⟩
  have renders := all zeroPadded zeroPaddedFormat minusFortyTwo (by decide)
  obtain ⟨ap, stored⟩ := renders.stored 4096 64 (by decide) (by decide) (by decide)
  rw [run, asked] at stored
  have bytes : indexed 0 (ascii "00-42" ++ [0]) = indexed 0 (ascii "-0042" ++ [0]) :=
    congrArg Prod.fst (Option.some.inj stored)
  exact absurd bytes (by decide)

/-- vprintf puts the zeros behind the sign. -/
example : (scanned zeroPadded).stored.stdoutText minusFortyTwo = ascii "-0042" := by decide

def fortyTwo : VaArg := ⟨42, CString.empty⟩

theorem renders_iff_positive : RendersAsC zeroPadded zeroPaddedFormat fortyTwo ∧
    ¬ zeroPadded.ZerosBeforeSign fortyTwo := by
  have plain : ¬ zeroPadded.ZerosBeforeSign fortyTwo := by
    intro ⟨_, _, negative, _⟩
    exact absurd negative (by decide)
  exact ⟨(renders_iff zeroPadded zeroPaddedFormat (by decide) fortyTwo).mpr plain, plain⟩

end AxiomeToolchain.Guarantees.IntegerRendering
