import AxiomeToolchain.Library.CInt
import AxiomeToolchain.Source.FormatScratch

/-!
# The digit loops write the number

In every base that the formatter uses and for every 64-bit number: twenty rounds
are enough, no index leaves its array, and the digits are the same in both
engines. `positional` reads the digits back with the values of the characters.
-/

set_option autoImplicit false

namespace AxiomeToolchain.Guarantees.DigitLoops
open AxiomeToolchain.Library.CInt
open AxiomeToolchain.Library.Sink
open AxiomeToolchain.Source.Stdio
open AxiomeToolchain.Source.Format

/-- Digits with the value `v`, of which the first is '0' only if it is alone. -/
structure Spells (upper : Bool) (base v : Nat) (text : List UInt8) : Prop where
  nonempty : text ≠ []
  value : positional upper base 0 text = some v
  leading : text.head? = some zeroChar → text = [zeroChar]

/-- The bases and the cases of their digits. -/
inductive Radix where
  | decimal | lowerHex | upperHex

def Radix.base : Radix → Nat
  | .decimal => 10
  | .lowerHex => 16
  | .upperHex => 16

def Radix.upper : Radix → Bool
  | .upperHex => true
  | _ => false

/-- 'u', 'x' or 'X' -/
def Radix.spec : Radix → UInt8
  | .decimal => 117
  | .lowerHex => 120
  | .upperHex => 88

/-- The text that each conversion in base `r` leaves in `tmp_buf` for `v`. The loop
of %d gets magnitudes, with or without a sign in front. -/
structure Rendered (scratch : Scratch) (r : Radix) (v : Nat) (text : List UInt8) : Prop where
  unsigned : ∃ buf, caseUnsigned 20 scratch r.spec v = some buf ∧ Terminated buf text
  pointer : r = .lowerHex →
    ∃ buf, casePointer 20 scratch v = some buf ∧ Terminated buf (ascii "0x" ++ text)
  magnitude : r = .decimal → ∀ sign, sign = [] ∨ sign = [minusChar] →
    ∃ buf, writeTmp 20 scratch sign decimalDigit 10 v = some buf ∧ Terminated buf (sign ++ text)
  signed : r = .decimal → ∀ n : BitVec 64, n.toInt.natAbs = v →
    ∃ buf, caseSigned 20 scratch n.toInt = some buf ∧
      Terminated buf ((if n.toInt < 0 then [minusChar] else []) ++ text)

variable {upper : Bool} {base v : Nat}

theorem digitValue_digitOf : ∀ (upper : Bool) (i : Nat), i < 16 →
    digitValue upper (digitOf upper i) = some i := by
  decide

theorem positional_digit {i : Nat} (n : Nat) (hex : base ≤ 16) (small : i < base) :
    positional upper base n [digitOf upper i] = some (n * base + i) :=
  positional_cons n [] (digitValue_digitOf upper i (Nat.lt_of_lt_of_le small hex)) small

theorem positional_numeral (upper : Bool) (two : 1 < base) (hex : base ≤ 16) (v : Nat) :
    positional upper base 0 (numeral upper base v) = some v := by
  induction v using Nat.strongRecOn with
  | ind v ih =>
    rw [numeral_step upper two v]
    split
    · next small =>
      rw [positional_digit 0 hex small, Nat.zero_mul, Nat.zero_add]
    · next large =>
      have smaller : v / base < v := Nat.div_lt_self (by omega) two
      rw [positional_append, ih (v / base) smaller, Option.bind_some,
        positional_digit _ hex (Nat.mod_lt v (by omega)), Nat.div_add_mod' v base]

theorem numeral_spells (upper : Bool) (two : 1 < base) (hex : base ≤ 16) (v : Nat) :
    Spells upper base v (numeral upper base v) := by
  have value := positional_numeral upper two hex v
  by_cases zero : v = 0
  · subst zero
    have single : numeral upper base 0 = [zeroChar] := if_pos rfl
    rw [single] at value ⊢
    exact ⟨List.cons_ne_nil _ _, value, fun _ => rfl⟩
  · obtain ⟨c, rest, found, nonzero⟩ := numeral_no_zero upper two hex zero
    rw [found] at value ⊢
    refine ⟨List.cons_ne_nil _ _, value, fun leading => ?_⟩
    exact absurd (Option.some.inj leading) nonzero

theorem Radix.wide (r : Radix) : 10 ≤ r.base := by
  cases r <;> decide

theorem Radix.hex (r : Radix) : r.base ≤ 16 := by
  cases r <;> decide

theorem numeral_rendered (scratch : Scratch) (r : Radix) (fits : v < wordModulus) :
    Rendered scratch r v (numeral r.upper r.base v) := by
  have text : tmpDigits (digitOf (r.spec = 88)) (if r.spec = 117 then 10 else 16) v =
      some (numeral r.upper r.base v) := by
    cases r <;> exact tmpDigits_eq _ (by decide) fits
  constructor
  · obtain ⟨buf, _, run, found, terminated⟩ := caseUnsigned_holds scratch r.spec fits
    cases text.symm.trans found
    exact ⟨buf, run, terminated⟩
  · rintro rfl
    obtain ⟨buf, _, run, found, terminated⟩ := casePointer_holds scratch fits
    cases text.symm.trans found
    exact ⟨buf, run, terminated⟩
  · rintro rfl sign either
    have short : sign.length ≤ 2 := by
      obtain rfl | rfl := either <;> decide
    obtain ⟨buf, run, terminated⟩ :=
      writeTmp_holds scratch sign short decimalDigit (Nat.le_refl 10) fits
    rw [stored_decimal, numeral_stored] at terminated
    exact ⟨buf, run, terminated⟩
  · rintro rfl n rfl
    have low : -9223372036854775808 ≤ n.toInt := BitVec.le_toInt n
    have high : n.toInt ≤ 9223372036854775807 := Int.le_sub_one_of_lt BitVec.toInt_lt
    obtain ⟨buf, _, run, found, terminated⟩ := caseSigned_holds scratch low high
    cases (signedText_eq low high).symm.trans found
    exact ⟨buf, run, terminated⟩

/-- For every 64-bit number and every base there is one text, at most twenty
digits with that value and no leading zero, that emit_uint_width emits behind
its padding and that the conversions of vsnprintf_internal leave in `tmp_buf`. -/
theorem digit_loops (v : BitVec 64) (r : Radix) (scratch : Scratch) (kernel : Kernel) (st : State)
    (width : Int) (zeroPad : Bool) :
    ∃ text, Spells r.upper r.base v.toNat text ∧ text.length ≤ 20 ∧
      emitUintWidthIn 20 scratch.digits kernel st v.toNat r.base r.upper width zeroPad =
        putAll (emit kernel) st (uintText text width zeroPad) ∧
      Rendered scratch r v.toNat text := by
  have fits : v.toNat < wordModulus := v.isLt
  have length := stored_length_le (digitOf r.upper) r.wide fits
  rw [← List.length_reverse, numeral_stored] at length
  refine ⟨numeral r.upper r.base v.toNat, ?_, length, ?_, numeral_rendered scratch r fits⟩
  · exact numeral_spells r.upper (Nat.lt_of_lt_of_le (by decide) r.wide) r.hex v.toNat
  · rw [emitUintWidthIn_eq scratch.digits kernel st r.upper r.wide fits,
      emitUintWidth_eq kernel st r.upper r.wide fits]

end AxiomeToolchain.Guarantees.DigitLoops
