import AxiomeToolchain.Library.Sink
import AxiomeToolchain.Source.FormatNumeral

/-!
# The digit loops and their arrays

sdk/src/stdio.c:43-72,194-259. `Source.Format` takes the digits as a list. Here
the loops store into the arrays on the stack, whatever these hold on entry, and
get a budget of rounds. `none` is a round beyond the budget or an index outside
an array. Twenty rounds are enough, and the lists are what the arrays hold.
-/

set_option autoImplicit false

namespace AxiomeToolchain.Source.Format
open AxiomeToolchain.Library.CInt
open AxiomeToolchain.Library.Sink
open AxiomeToolchain.Source.Stdio

def digitsSize : Nat := 24
def tmpBufSize : Nat := 64

/-- `while (v) { digits[i++] = …; v /= base; }` -/
def fillLoop (digit : Nat → UInt8) (base : Nat) :
    Nat → Cursor UInt8 digitsSize → Nat → Option (Cursor UInt8 digitsSize)
  | 0, s, v => if v = 0 then some s else none
  | budget + 1, s, v =>
    if v = 0 then some s
    else (push s (digit (v % base))).bind (fun s => fillLoop digit base budget s (v / base))

/-- From `int i = 0` to the last digit. -/
def fillDigits (budget : Nat) (array : Vector UInt8 digitsSize) (digit : Nat → UInt8) (base v : Nat) :
    Option (Cursor UInt8 digitsSize) :=
  if v = 0 then push ⟨array, 0⟩ zeroChar else fillLoop digit base budget ⟨array, 0⟩ v

/-- `digits` (or `dbuf`, or `tmp`) and `tmp_buf`. -/
structure Scratch where
  digits : Vector UInt8 digitsSize
  tmpBuf : Vector UInt8 tmpBufSize

/-- What stands before the digits, the digits from the last stored on, and a NUL.
The index is `p - tmp_buf`. -/
def writeTmp (budget : Nat) (scratch : Scratch) (front : List UInt8) (digit : Nat → UInt8)
    (base v : Nat) : Option (Cursor UInt8 tmpBufSize) :=
  (putAll push ⟨scratch.tmpBuf, 0⟩ front).bind (fun p =>
  (fillDigits budget scratch.digits digit base v).bind (fun digits =>
  (drain digits.array push digits.index p).bind (fun p =>
  (push p 0).map (fun ended => ⟨ended.array, p.index⟩))))

/-- `case 'd'` and `case 'i'` -/
def caseSigned (budget : Nat) (scratch : Scratch) (v : Int) : Option (Cursor UInt8 tmpBufSize) :=
  let sign := if v < 0 then [minusChar] else []
  let v := if v < 0 then wrapLong (wrapLong (-(wrapLong (v + 1))) + 1) else v
  writeTmp budget scratch sign decimalDigit 10 (asUnsigned v)

/-- `case 'u'`, `case 'x'` and `case 'X'` -/
def caseUnsigned (budget : Nat) (scratch : Scratch) (spec : UInt8) (v : Nat) :
    Option (Cursor UInt8 tmpBufSize) :=
  let base := if spec = 117 then 10 else 16
  writeTmp budget scratch [] (digitOf (spec = 88)) base v

/-- `case 'p'` -/
def casePointer (budget : Nat) (scratch : Scratch) (v : Nat) : Option (Cursor UInt8 tmpBufSize) :=
  writeTmp budget scratch (ascii "0x") (digitOf false) 16 v

/-- `emit_uint_width` with its array `tmp`. -/
def emitUintWidthIn (budget : Nat) (tmp : Vector UInt8 digitsSize) (kernel : Kernel) (st : State)
    (v base : Nat) (upper : Bool) (width : Int) (zeroPad : Bool) : Option State :=
  (fillDigits budget tmp (digitOf upper) base v).bind (fun tmp =>
    let padCount := wrapInt (width - tmp.index)
    (if padCount > 0 then
      putAll (emit kernel) st
        (List.replicate (countdown padCount) (if zeroPad then zeroChar else spaceChar))
      else some st).bind (fun st =>
    drain tmp.array (emit kernel) tmp.index st))

/-! ## The digits in the array -/

variable {base v : Nat}

/-- The bytes in the order of the stores. -/
def stored (digit : Nat → UInt8) (base v : Nat) : List UInt8 :=
  if v = 0 then [zeroChar] else (Nat.digits base v).map digit

theorem numeral_stored (upper : Bool) (base v : Nat) :
    (stored (digitOf upper) base v).reverse = numeral upper base v := by
  unfold stored numeral
  split <;> rfl

theorem stored_decimal (v : Nat) : stored decimalDigit 10 v = stored (digitOf false) 10 v := by
  have same : (Nat.digits 10 v).map decimalDigit = (Nat.digits 10 v).map (digitOf false) :=
    List.map_congr_left (fun i member => decimalDigit_eq i (Nat.digits_lt_base (by decide) member))
  rw [stored, same, stored]

/-- 64-bit numbers have at most twenty digits. -/
theorem digits_length_le (wide : 10 ≤ base) (fits : v < wordModulus) :
    (Nat.digits base v).length ≤ 20 := by
  rw [Nat.digits_length_le_iff (by omega)]
  calc v < wordModulus := fits
    _ ≤ 10 ^ 20 := by decide
    _ ≤ base ^ 20 := Nat.pow_le_pow_left wide 20

theorem stored_length_le (digit : Nat → UInt8) (wide : 10 ≤ base) (fits : v < wordModulus) :
    (stored digit base v).length ≤ 20 := by
  unfold stored
  split
  · decide
  · rw [List.length_map]
    exact digits_length_le wide fits

/-- The loop stores the digits of the shrinking `v` behind those already there. -/
theorem fillLoop_holds (digit : Nat → UInt8) (two : 1 < base) (budget v : Nat)
    {s : Cursor UInt8 digitsSize} {xs : List UInt8} (holds : Holds s xs)
    (enough : (Nat.digits base v).length ≤ budget)
    (room : xs.length + (Nat.digits base v).length ≤ digitsSize) :
    ∃ s', fillLoop digit base budget s v = some s' ∧
      Holds s' (xs ++ (Nat.digits base v).map digit) := by
  induction budget generalizing v s xs with
  | zero =>
    have zero : v = 0 := by
      rwa [Nat.le_zero, List.length_eq_zero_iff, Nat.digits_eq_nil_iff_eq_zero] at enough
    subst zero
    refine ⟨s, if_pos rfl, ?_⟩
    rwa [Nat.digits_zero, List.map_nil, List.append_nil]
  | succ budget ih =>
    by_cases zero : v = 0
    · subst zero
      refine ⟨s, if_pos rfl, ?_⟩
      rwa [Nat.digits_zero, List.map_nil, List.append_nil]
    · have digits := Nat.digits_def' two (Nat.pos_of_ne_zero zero)
      rw [digits, List.length_cons] at enough room
      obtain ⟨s', pushed, holds'⟩ := push_holds (x := digit (v % base)) holds (by omega)
      have room' : (xs ++ [digit (v % base)]).length + (Nat.digits base (v / base)).length ≤
          digitsSize := by
        rw [List.length_append, List.length_singleton]
        omega
      obtain ⟨s'', run, holds''⟩ := ih (v / base) holds' (by omega) room'
      refine ⟨s'', by rw [fillLoop, if_neg zero, pushed, Option.bind_some, run], ?_⟩
      rwa [digits, List.map_cons, List.append_cons]

theorem fillDigits_holds (array : Vector UInt8 digitsSize) (digit : Nat → UInt8) (wide : 10 ≤ base)
    (fits : v < wordModulus) :
    ∃ s, fillDigits 20 array digit base v = some s ∧ Holds s (stored digit base v) := by
  have short := digits_length_le wide fits
  rw [fillDigits, stored]
  split
  · exact push_holds (holds_nil array) (by decide)
  · refine fillLoop_holds digit (by omega) 20 v (holds_nil array) short ?_
    rw [List.length_nil, Nat.zero_add]
    exact Nat.le_trans short (by decide)

/-- `tmp_buf` holds the text and a NUL, and the index is the length of the text. -/
structure Terminated (buf : Cursor UInt8 tmpBufSize) (text : List UInt8) : Prop where
  length : buf.index = text.length
  bytes : Holds ⟨buf.array, buf.index + 1⟩ (text ++ [0])

theorem writeTmp_holds (scratch : Scratch) (front : List UInt8) (short : front.length ≤ 2)
    (digit : Nat → UInt8) (wide : 10 ≤ base) (fits : v < wordModulus) :
    ∃ buf, writeTmp 20 scratch front digit base v = some buf ∧
      Terminated buf (front ++ (stored digit base v).reverse) := by
  have length := stored_length_le digit wide fits
  have room : front.length + (stored digit base v).reverse.length + 1 ≤ tmpBufSize := by
    rw [List.length_reverse, tmpBufSize]
    omega
  obtain ⟨p, fronted, holds⟩ := pushAll_holds front (holds_nil scratch.tmpBuf) (by
    rw [List.length_nil]
    omega)
  obtain ⟨digits, filled, held⟩ := fillDigits_holds scratch.digits digit wide fits
  obtain ⟨q, copied, holds'⟩ := pushAll_holds (stored digit base v).reverse holds (by
    rw [List.nil_append]
    omega)
  rw [List.nil_append] at holds'
  obtain ⟨ended, closed, holds''⟩ := push_holds (x := 0) holds' (by
    rw [List.length_append]
    omega)
  refine ⟨⟨ended.array, q.index⟩, ?_, holds'.index, ?_⟩
  · rw [writeTmp, fronted, Option.bind_some, filled, Option.bind_some, drain_holds held, copied,
      Option.bind_some, closed, Option.map_some]
  · have at_end := holds''.index
    rw [List.length_append, List.length_singleton, ← holds'.index] at at_end
    dsimp only
    rw [← at_end]
    exact holds''

/-! ## The conversions -/

theorem caseSigned_holds (scratch : Scratch) {v : Int} (low : -9223372036854775808 ≤ v)
    (high : v ≤ 9223372036854775807) :
    ∃ buf text, caseSigned 20 scratch v = some buf ∧ signedText v = some text ∧
      Terminated buf text := by
  have short : (if v < 0 then [minusChar] else []).length ≤ 2 := by
    split <;> decide
  obtain ⟨buf, run, text⟩ := writeTmp_holds scratch _ short decimalDigit (Nat.le_refl 10)
    (natAbs_lt low high)
  rw [stored_decimal, numeral_stored] at text
  refine ⟨buf, _, ?_, signedText_eq low high, text⟩
  rw [← run, caseSigned]
  by_cases negative : v < 0
  · simp only [if_pos negative, asUnsigned_negated negative low]
  · simp only [if_neg negative, asUnsigned_nonneg negative high]

theorem caseUnsigned_holds (scratch : Scratch) (spec : UInt8) (fits : v < wordModulus) :
    ∃ buf text, caseUnsigned 20 scratch spec v = some buf ∧
      tmpDigits (digitOf (spec = 88)) (if spec = 117 then 10 else 16) v = some text ∧
      Terminated buf text := by
  have wide : 10 ≤ if spec = 117 then 10 else 16 := by
    split <;> decide
  obtain ⟨buf, run, text⟩ := writeTmp_holds scratch [] (by decide) (digitOf (spec = 88))
    wide fits
  rw [numeral_stored] at text
  exact ⟨buf, _, run, tmpDigits_eq _ wide fits, text⟩

theorem casePointer_holds (scratch : Scratch) (fits : v < wordModulus) :
    ∃ buf text, casePointer 20 scratch v = some buf ∧
      tmpDigits (digitOf false) 16 v = some text ∧ Terminated buf (ascii "0x" ++ text) := by
  obtain ⟨buf, run, text⟩ := writeTmp_holds scratch (ascii "0x") (by decide) (digitOf false)
    (by decide : 10 ≤ 16) fits
  rw [numeral_stored] at text
  exact ⟨buf, _, run, tmpDigits_eq _ (by decide) fits, text⟩

/-- With its array emit_uint_width is the function on lists. -/
theorem emitUintWidthIn_eq (tmp : Vector UInt8 digitsSize) (kernel : Kernel) (st : State)
    (upper : Bool) (wide : 10 ≤ base) (fits : v < wordModulus) (width : Int) (zeroPad : Bool) :
    emitUintWidthIn 20 tmp kernel st v base upper width zeroPad =
      emitUintWidth kernel st v base upper width zeroPad := by
  obtain ⟨digits, filled, held⟩ := fillDigits_holds tmp (digitOf upper) wide fits
  have count : digits.index = (numeral upper base v).length := by
    rw [held.index, ← numeral_stored, List.length_reverse]
  rw [emitUintWidth_eq kernel st upper wide fits, emitUintWidthIn, filled, Option.bind_some, uintText,
    putAll_append, count]
  simp only [← count, drain_holds held, numeral_stored]
  split <;> rfl

end AxiomeToolchain.Source.Format
