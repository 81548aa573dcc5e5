import AxiomeToolchain.Source.FormatTrace
import AxiomeToolchain.Source.StdlibNumbers

/-!
# Where signed arithmetic overflows

vsnprintf_internal negates as `-(v + 1) + 1` in long, which overflows for the
least long; emit_int_width adds the 1 as an unsigned long. atoi and atol
accumulate the digits before they apply the sign, so the least int and the least
long overflow there. Nothing else does.
-/

set_option autoImplicit false

namespace AxiomeToolchain.Guarantees.SignedOverflow
open AxiomeToolchain.Library.CInt
open AxiomeToolchain.Library.Sink
open AxiomeToolchain.Library.SignedTrace
open AxiomeToolchain.Source.Stdio
open AxiomeToolchain.Source.Format
open AxiomeToolchain.Source.StdlibNumbers

variable {kernel : Kernel} {st : State} {v : Int}

/-! ## Counters -/

theorem increment_safe_bind {α : Type} {i : Int} {next : Int → Traced α} (low : 0 ≤ i)
    (high : i + 1 ≤ 2147483647) (rest : (next (i + 1)).Safe) :
    ((Traced.add .int i 1).bind next).Safe := by
  have bounds : SignedType.int.min ≤ i + 1 ∧ i + 1 ≤ SignedType.int.max := by
    rw [SignedType.int_min, SignedType.int_max]
    omega
  rw [Traced.add, Traced.safe_perform_bind_iff, SignedType.int.wrap_of_range bounds.1 bounds.2]
  exact ⟨bounds, rest⟩

theorem digitLoopTraced_safe (digit : Nat → UInt8) (base room : Nat) {i : Int} (v : Nat)
    (low : 0 ≤ i) (high : i + room ≤ 24) : (digitLoopTraced digit base room i v).Safe := by
  induction room generalizing i v with
  | zero => cases v <;> exact Traced.safe_lift _
  | succ room ih =>
    cases v with
    | zero => exact Traced.safe_lift _
    | succ v =>
      apply increment_safe_bind low (by omega)
      exact Traced.safe_bind (ih _ (by omega) (by omega)) (fun _ _ => Traced.safe_lift _)

theorem digitsTraced_safe (digit : Nat → UInt8) (base v : Nat) :
    (digitsTraced digit base v).Safe := by
  unfold digitsTraced
  split
  · exact increment_safe_bind (Int.le_refl 0) (by decide) (Traced.safe_lift _)
  · exact digitLoopTraced_safe digit base 24 v (Int.le_refl 0) (by decide)

theorem writeLoopTraced_safe (target : Target) (out : Out) {i : Int} (text : List UInt8)
    (low : 0 ≤ i) (high : i + text.length ≤ 2147483647) :
    (writeLoopTraced target out i text).Safe := by
  induction text generalizing out i with
  | nil => exact Traced.safe_lift _
  | cons c rest ih =>
    rw [List.length_cons] at high
    apply Traced.safe_bind (Traced.safe_lift _)
    intro next _
    apply increment_safe_bind low (by omega)
    exact ih next (by omega) (by omega)

theorem writePaddedTraced_safe (target : Target) (d : Directive) (text : List UInt8) (out : Out)
    (short : text.length ≤ 2147483647) :
    (writePaddedTraced target d text text.length out).Safe := by
  apply Traced.safe_bind (Traced.safe_lift _)
  intro padded _
  apply Traced.safe_bind
  · apply writeLoopTraced_safe target padded _ (Int.le_refl 0)
    rw [Int.toNat_natCast, List.take_length]
    omega
  · exact fun _ _ => Traced.safe_lift _

/-! ## vsnprintf_internal -/

/-- `-(v + 1)` stays in range for every negative long. -/
theorem negate_safe_bind_iff {α : Type} {next : Int → Traced α} (low : SignedType.long.min ≤ v)
    (negative : v < 0) :
    ((Traced.add .long v 1).bind (fun v => (Traced.neg .long v).bind next)).Safe ↔
      (next (-(v + 1))).Safe := by
  rw [SignedType.long_min] at low
  have first : SignedType.long.min ≤ v + 1 ∧ v + 1 ≤ SignedType.long.max := by
    rw [SignedType.long_min, SignedType.long_max]
    omega
  have second : SignedType.long.min ≤ -(v + 1) ∧ -(v + 1) ≤ SignedType.long.max := by
    rw [SignedType.long_min, SignedType.long_max]
    omega
  unfold Traced.add Traced.neg
  rw [Traced.safe_perform_bind_iff, SignedType.wrap_of_range _ first.1 first.2,
    Traced.safe_perform_bind_iff, SignedType.wrap_of_range _ second.1 second.2]
  simp only [first, second, and_self, true_and]

theorem negateTraced_safe_iff (low : SignedType.long.min ≤ v) (negative : v < 0) :
    (negateTraced v).Safe ↔ v ≠ SignedType.long.min := by
  unfold negateTraced
  rw [negate_safe_bind_iff low negative, Traced.add, Traced.safe_perform_iff]
  rw [SignedType.long_min] at low ⊢
  rw [SignedType.long_max]
  omega

theorem signedTextTraced_safe_iff (low : SignedType.long.min ≤ v) :
    (signedTextTraced v).Safe ↔ v ≠ SignedType.long.min := by
  unfold signedTextTraced
  rw [Traced.safe_bind_iff]
  have digits (sign : List UInt8) (n : Int) :
      ((digitsTraced decimalDigit 10 (asUnsigned n)).bind (fun digits =>
        Traced.lift (some (sign ++ digits.reverse)))).Safe :=
    Traced.safe_bind (digitsTraced_safe _ _ _) (fun _ _ => Traced.safe_lift _)
  by_cases negative : v < 0
  · rw [if_pos negative, if_pos negative, negateTraced_safe_iff low negative]
    exact and_iff_left (fun n _ => digits [minusChar] n)
  · rw [if_neg negative, if_neg negative]
    have above : v ≠ SignedType.long.min := by
      rw [SignedType.long_min]
      omega
    exact iff_of_true ⟨Traced.safe_lift _, fun n _ => digits [] n⟩ above

theorem convertSignedTraced_safe_iff (target : Target) (d : Directive) (out : Out)
    (low : SignedType.long.min ≤ v) (high : v ≤ SignedType.long.max) :
    (convertSignedTraced target d v out).Safe ↔ v ≠ SignedType.long.min := by
  unfold convertSignedTraced
  rw [Traced.safe_bind_iff, signedTextTraced_safe_iff low, signedTextTraced_value,
    signedText_eq low high]
  apply and_iff_left
  intro text found
  cases found
  have short := signedText_length low high
  exact writePaddedTraced_safe target d _ out (Nat.le_trans short (by decide))

/-! ## emit_int_width -/

theorem emitTraced_safe (room : st.outlen ≤ outbufSize - 2) (c : UInt8) :
    (emitTraced kernel st c).Safe := by
  unfold outbufSize at room
  exact increment_safe_bind (Int.natCast_nonneg _) (by omega) (Traced.safe_lift _)

theorem feed_emit_safe (room : st.outlen ≤ outbufSize - 2) (bytes : List UInt8) :
    (Traced.feed (emitTraced kernel) st bytes).Safe := by
  induction bytes generalizing st with
  | nil => exact Traced.safe_lift _
  | cons c rest ih =>
    apply Traced.safe_bind (emitTraced_safe room c)
    intro next stepped
    obtain ⟨next', emitted, after⟩ := emit_emitted kernel room c
    cases emitted.symm.trans stepped
    exact ih after.room

theorem feed_emit_room (room : st.outlen ≤ outbufSize - 2) (bytes : List UInt8) {next : State}
    (fed : (Traced.feed (emitTraced kernel) st bytes).value = some next) :
    next.outlen ≤ outbufSize - 2 := by
  rw [Traced.feed_value] at fed
  obtain ⟨next', emitted, after⟩ := putAll_emitted kernel room bytes
  cases emitted.symm.trans fed
  exact after.room

theorem emitUintWidthTraced_safe (room : st.outlen ≤ outbufSize - 2) (v base : Nat) (upper : Bool)
    (width : Int) (zeroPad : Bool) :
    (emitUintWidthTraced kernel st v base upper width zeroPad).Safe := by
  apply Traced.safe_bind (digitsTraced_safe _ _ _)
  intro tmp _
  by_cases pads : wrapInt (width - tmp.length) > 0
  · simp only [if_pos pads]
    apply Traced.safe_bind (feed_emit_safe room _)
    intro next fed
    exact feed_emit_safe (feed_emit_room room _ fed) _
  · simp only [if_neg pads, Traced.lift_bind]
    exact feed_emit_safe room _

/-- emit_int_width never overflows, whatever width it pads to. -/
theorem emitIntWidthTraced_safe (room : st.outlen ≤ outbufSize - 2)
    (low : SignedType.long.min ≤ v) (width : Int) (zeroPad : Bool) :
    (emitIntWidthTraced kernel st v width zeroPad).Safe := by
  unfold emitIntWidthTraced
  split
  · next negative =>
    apply Traced.safe_bind (emitTraced_safe room minusChar)
    intro next stepped
    obtain ⟨next', emitted, after⟩ := emit_emitted kernel room minusChar
    cases emitted.symm.trans stepped
    rw [negate_safe_bind_iff low negative]
    exact emitUintWidthTraced_safe after.room _ _ _ _ _
  · exact emitUintWidthTraced_safe room _ _ _ _ _

/-! ## Every number -/

/-- %ld -/
def longDirective : Directive := ⟨false, false, 0, true, 100⟩

/-- No operation leaves its type when `v` is formatted with %ld by either engine
and read by atol, and when `w` is read by atoi. The engines compute the values of
the operations counted here. -/
structure OverflowFree (v : BitVec 64) (w : BitVec 32) (after : List UInt8) : Prop where
  buffer : ∀ target out ap rest, vaSigned true ap = some (v.toInt, rest) →
    convertToBuffer target longDirective out ap =
        (convertSignedTraced target longDirective v.toInt out).value.map (fun out => (out, rest)) ∧
      (convertSignedTraced target longDirective v.toInt out).Safe
  stdout : ∀ kernel (st : State), st.outlen ≤ outbufSize - 2 →
    emitIntWidth kernel st v.toInt 0 false = (emitIntWidthTraced kernel st v.toInt 0 false).value ∧
      (emitIntWidthTraced kernel st v.toInt 0 false).Safe
  atol : (atol (decimalText v.toInt ++ 0 :: after)).Safe
  atoi : (atoi (decimalText w.toInt ++ 0 :: after)).Safe

/-- For every long and every int: exactly the two minima overflow. -/
theorem overflow_free_iff (v : BitVec 64) (w : BitVec 32) (after : List UInt8) :
    OverflowFree v w after ↔ v.toInt ≠ SignedType.long.min ∧ w.toInt ≠ SignedType.int.min := by
  obtain ⟨low, high⟩ := long_range v
  obtain ⟨low', high'⟩ := int_range w
  constructor
  · intro free
    constructor
    · exact (parseNumber_safe_iff .long after low high).mp free.atol
    · exact (parseNumber_safe_iff .int after low' high').mp free.atoi
  · intro ⟨above, above'⟩
    constructor
    · intro target out ap rest fetched
      refine ⟨?_, (convertSignedTraced_safe_iff target longDirective out low high).mpr above⟩
      rw [convertSignedTraced_value target (.inl rfl), show longDirective.longflag = true from rfl,
        fetched, Option.bind_some]
    · intro kernel st room
      exact ⟨(emitIntWidthTraced_value kernel st v.toInt 0 false).symm,
        emitIntWidthTraced_safe room low 0 false⟩
    · exact (parseNumber_safe_iff .long after low high).mpr above
    · exact (parseNumber_safe_iff .int after low' high').mpr above'

/-- The additions that overflow: `-(v + 1) + 1` in vsnprintf_internal, and
`v * 10 + 8` in atol and atoi, each for the least number. -/
theorem minimum_overflows :
    ⟨.long, 9223372036854775808⟩ ∈ (signedTextTraced (-9223372036854775808)).operations ∧
      ⟨.long, 9223372036854775808⟩ ∈ (atol (ascii "-9223372036854775808" ++ [0])).operations ∧
      ⟨.int, 2147483648⟩ ∈ (atoi (ascii "-2147483648" ++ [0])).operations ∧
      ¬ ∀ (v : BitVec 64) (w : BitVec 32) (after : List UInt8), OverflowFree v w after := by
  refine ⟨by decide, by decide, by decide, fun all => ?_⟩
  have free := (all (BitVec.intMin 64) 0 []).atol
  have range := long_range (BitVec.intMin 64)
  exact (parseNumber_safe_iff .long [] range.1 range.2).mp free (by decide)

end AxiomeToolchain.Guarantees.SignedOverflow
