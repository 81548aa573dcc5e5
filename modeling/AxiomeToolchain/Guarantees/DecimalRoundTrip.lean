import AxiomeToolchain.Guarantees.PrintfSprintf
import AxiomeToolchain.Source.StdlibNumbers

/-!
# %ld and %d read back by atol and atoi

Both engines write sign and magnitude, with the minimum negated through a wrap;
the parsers add up the magnitude and negate it, wrapping at the same places.
-/

set_option autoImplicit false

namespace AxiomeToolchain.Guarantees.DecimalRoundTrip
open AxiomeToolchain.Library.CInt
open AxiomeToolchain.Library.Sink
open AxiomeToolchain.Library.SignedTrace
open AxiomeToolchain.Source.Stdio
open AxiomeToolchain.Source.Format
open AxiomeToolchain.Source.StdlibNumbers
open AxiomeToolchain.Guarantees.PrintfSprintf

def longFormat : CString := ⟨ascii "%ld", by decide, by decide⟩

def intFormat : CString := ⟨ascii "%d", by decide, by decide⟩

/-- For this argument both engines produce the text: vsnprintf_internal stores it
with its NUL in every buffer that has the room, vprintf writes it to descriptor 1. -/
structure Produces (fmt : CString) (arg : VaArg) (text : List UInt8) : Prop where
  stored : ∀ str size, str ≠ 0 → text.length < size → size < wordModulus → ∃ ap,
    vsnprintfInternal ⟨str, size, true⟩ fmt ⟨[arg], []⟩ =
      some (indexed 0 (text ++ [0]), ap, (text.length : Int))
  printed : ∀ (kernel : Kernel) (st : State), st.outlen = 0 → ∃ st' ap,
    vprintf kernel st fmt ⟨[arg], []⟩ = some (st', ap, 0) ∧ Sent kernel st st' 1 (buffers text)

/-- %d or %ld without flags and width. -/
def plainDirective (longflag : Bool) : Directive := ⟨false, false, 0, longflag, 100⟩

variable {arg : VaArg} {longflag : Bool}

theorem plain_text (arg : VaArg) (longflag : Bool) :
    (plainDirective longflag).text arg = decimalText (arg.signed longflag) := text_signed (.inl rfl) arg

theorem decimalText_length (arg : VaArg) (longflag : Bool) :
    (decimalText (arg.signed longflag)).length ≤ 26 := by
  obtain ⟨low, high⟩ := arg.signed_range longflag
  exact signedText_length low high

theorem bufferText_plain (arg : VaArg) (longflag : Bool) :
    (Item.convert (plainDirective longflag) arg).bufferText = decimalText (arg.signed longflag) := by
  have short := decimalText_length arg longflag
  have none_missing : ((plainDirective longflag).width -
      (decimalText (arg.signed longflag)).length).toNat = 0 := by
    change (0 - ((decimalText (arg.signed longflag)).length : Int)).toNat = 0
    omega
  have narrow : (0 : Int) ≤ intMax := by decide
  rw [Item.bufferText, plain_text, Directive.padded_eq (Int.le_refl 0) narrow (by omega),
    none_missing]
  rfl

/-- Without a width there is no padding for the engines to differ in. -/
theorem stdoutText_plain (arg : VaArg) (longflag : Bool) :
    (Item.convert (plainDirective longflag) arg).stdoutText = decimalText (arg.signed longflag) := by
  have short := decimalText_length arg longflag
  have fits : (Item.convert (plainDirective longflag) arg).Fits := by
    have narrow : (0 : Int) ≤ intMax := by decide
    refine ⟨Int.le_refl 0, narrow, ?_⟩
    rw [Item.text, plain_text]
    omega
  have agrees : PaddingAgrees (.convert (plainDirective longflag) arg) :=
    .inl (Int.natCast_nonneg _)
  rw [(item_agrees fits).mpr agrees, bufferText_plain]

/-- A format of one plain directive produces the decimal text of its argument. -/
theorem produces_plain {fmt : CString} (parsed : pieces fmt = [.directive (plainDirective longflag)])
    (arg : VaArg) : Produces fmt arg (decimalText (arg.signed longflag)) := by
  have short := decimalText_length arg longflag
  obtain ⟨ap, matching⟩ : ∃ ap, items (pieces fmt) ⟨[arg], []⟩ =
      some ([.convert (plainDirective longflag) arg], ap) := by
    rw [parsed]
    cases longflag <;> exact ⟨_, rfl⟩
  constructor
  · intro str size nonnull room fits
    have output : [Item.convert (plainDirective longflag) arg].flatMap Item.bufferText =
        decimalText (arg.signed longflag) := by
      rw [List.flatMap_singleton, bufferText_plain]
    have stored := vsnprintfInternal_items fmt ⟨[arg], []⟩ nonnull (by omega : 1 ≤ size) fits matching
    rw [output, List.take_of_length_le (by omega)] at stored
    exact ⟨ap, stored (by omega)⟩
  · intro kernel st idle
    obtain ⟨st', run, sent, -⟩ := vprintf_sent kernel idle matching
    rw [printed_eq matching, List.flatMap_singleton, stdoutText_plain] at sent
    exact ⟨st', ap, run, sent⟩

/-- For every 64-bit value of the argument, and for the 32-bit value in its low
half: the text of %ld is read back by atol and the text of %d by atoi, whatever
follows the terminator. -/
theorem decimal_round_trip (arg : VaArg) (after : List UInt8) :
    ∃ long int, Produces longFormat arg long ∧ Produces intFormat arg int ∧
      (0 : UInt8) ∉ long ∧ (0 : UInt8) ∉ int ∧
      (atol (long ++ 0 :: after)).value = some arg.word.toInt ∧
      (atoi (int ++ 0 :: after)).value = some (arg.word.setWidth 32).toInt := by
  obtain ⟨low, high⟩ := long_range arg.word
  obtain ⟨low', high'⟩ := int_range (arg.word.setWidth 32)
  refine ⟨decimalText (arg.signed true), decimalText (arg.signed false),
    produces_plain (by decide) arg, produces_plain (by decide) arg, decimalText_nul_free _,
    decimalText_nul_free _, ?_, ?_⟩
  · exact parseNumber_value .long after low high
  · exact parseNumber_value .int after low' high'

def leastLong : VaArg := ⟨BitVec.intMin 64, CString.empty⟩

/-- The minimum is written out in full and read back through two wraps. -/
example : decimalText (leastLong.signed true) = ascii "-9223372036854775808" ∧
    (atol (ascii "-9223372036854775808" ++ [0])).value = some (-9223372036854775808) := by
  decide +kernel

end AxiomeToolchain.Guarantees.DecimalRoundTrip
