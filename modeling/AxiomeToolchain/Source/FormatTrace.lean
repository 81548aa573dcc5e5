import AxiomeToolchain.Library.SignedTrace
import AxiomeToolchain.Source.FormatNumeral
import AxiomeToolchain.Source.StdioOutput

/-!
# The signed arithmetic of the number conversions

sdk/src/stdio.c:36-91,188-214,297-302 once more, with every addition and negation
of int and long traced, `i++` and `outlen++` included. Each value is the one of
the engine's own definition.
-/

set_option autoImplicit false

namespace AxiomeToolchain.Source.Format
open AxiomeToolchain.Library.CInt
open AxiomeToolchain.Library.Sink
open AxiomeToolchain.Library.SignedTrace
open AxiomeToolchain.Source.Stdio

/-- digitLoop with `tmp[i++]`. -/
def digitLoopTraced (digit : Nat → UInt8) (base : Nat) : Nat → Int → Nat → Traced (List UInt8)
  | _, _, 0 => Traced.lift (some [])
  | 0, _, _ + 1 => Traced.lift none
  | room + 1, i, v + 1 =>
    (Traced.add .int i 1).bind (fun i =>
      (digitLoopTraced digit base room i ((v + 1) / base)).bind (fun digits =>
        Traced.lift (some (digit ((v + 1) % base) :: digits))))

/-- `if (v == 0) digits[i++] = '0'; else while (v) …`. -/
def digitsTraced (digit : Nat → UInt8) (base v : Nat) : Traced (List UInt8) :=
  if v = 0 then (Traced.add .int 0 1).bind (fun _ => Traced.lift (some [zeroChar]))
  else digitLoopTraced digit base 24 0 v

/-! ## vsnprintf_internal -/

/-- `v = -(v + 1) + 1`. -/
def negateTraced (v : Int) : Traced Int :=
  (Traced.add .long v 1).bind (fun v =>
    (Traced.neg .long v).bind (fun v => Traced.add .long v 1))

/-- `case 'd'` behind the va_arg. -/
def signedTextTraced (v : Int) : Traced (List UInt8) :=
  let sign := if v < 0 then [minusChar] else []
  (if v < 0 then negateTraced v else Traced.lift (some v)).bind (fun v =>
    (digitsTraced decimalDigit 10 (asUnsigned v)).bind (fun digits =>
      Traced.lift (some (sign ++ digits.reverse))))

/-- `for (i = 0; i < tmp_len; i++)` over the text that is left. -/
def writeLoopTraced (target : Target) (out : Out) (i : Int) : List UInt8 → Traced Out
  | [] => Traced.lift (some out)
  | c :: text =>
    (Traced.lift (store target out c)).bind (fun out =>
      (Traced.add .int i 1).bind (fun i => writeLoopTraced target out i text))

def writePaddedTraced (target : Target) (d : Directive) (toWrite : List UInt8) (tmpLen : Int)
    (out : Out) : Traced Out :=
  let padChar := if d.zeroPad then zeroChar else spaceChar
  (Traced.lift (if d.leftAlign then some out
    else putAll (store target) out (padding d.width tmpLen padChar))).bind (fun out =>
  (writeLoopTraced target out 0 (toWrite.take tmpLen.toNat)).bind (fun out =>
  Traced.lift (if d.leftAlign then putAll (store target) out (padding d.width tmpLen spaceChar)
    else some out)))

/-- d and i of vsnprintf_internal behind the va_arg. -/
def convertSignedTraced (target : Target) (d : Directive) (v : Int) (out : Out) : Traced Out :=
  (signedTextTraced v).bind (fun text => writePaddedTraced target d text text.length out)

/-! ## emit_int_width -/

/-- `outbuf[outlen++] = c` and the test for a full buffer. -/
def emitTraced (kernel : Kernel) (st : State) (c : UInt8) : Traced State :=
  (Traced.add .int st.outlen 1).bind (fun _ => Traced.lift (emit kernel st c))

def emitUintWidthTraced (kernel : Kernel) (st : State) (v base : Nat) (upper : Bool) (width : Int)
    (zeroPad : Bool) : Traced State :=
  (digitsTraced (digitOf upper) base v).bind (fun tmp =>
    let padCount := wrapInt (width - tmp.length)
    (if padCount > 0 then
      Traced.feed (emitTraced kernel) st
        (List.replicate (countdown padCount) (if zeroPad then zeroChar else spaceChar))
      else Traced.lift (some st)).bind (fun st =>
    Traced.feed (emitTraced kernel) st tmp.reverse))

def emitIntWidthTraced (kernel : Kernel) (st : State) (v width : Int) (zeroPad : Bool) :
    Traced State :=
  if v < 0 then
    (emitTraced kernel st minusChar).bind (fun st =>
      let width := if width > 0 then width - 1 else width
      (Traced.add .long v 1).bind (fun v =>
        (Traced.neg .long v).bind (fun v =>
          emitUintWidthTraced kernel st (u64Add (asUnsigned v) 1) 10 false width zeroPad)))
  else emitUintWidthTraced kernel st (asUnsigned v) 10 false width zeroPad

/-! ## The values -/

theorem digitLoopTraced_value (digit : Nat → UInt8) (base room : Nat) (i : Int) (v : Nat) :
    (digitLoopTraced digit base room i v).value = digitLoop digit base room v := by
  induction room generalizing i v with
  | zero => cases v <;> rfl
  | succ room ih =>
    cases v with
    | zero => rfl
    | succ v =>
      simp only [digitLoopTraced, digitLoop, Traced.bind_value, Traced.add, Traced.perform_value,
        Option.bind_some, ih, Option.map_eq_bind]
      rfl

theorem digitsTraced_value (digit : Nat → UInt8) (base v : Nat) :
    (digitsTraced digit base v).value =
      if v = 0 then some [zeroChar] else digitLoop digit base 24 v := by
  unfold digitsTraced
  split
  · rfl
  · exact digitLoopTraced_value digit base 24 0 v

theorem signedTextTraced_value (v : Int) : (signedTextTraced v).value = signedText v := by
  have digits (sign : List UInt8) (v : Nat) :
      (digitsTraced decimalDigit 10 v).value.bind (fun digits => some (sign ++ digits.reverse)) =
        (tmpDigits decimalDigit 10 v).map (fun digits => sign ++ digits) := by
    rw [digitsTraced_value, tmpDigits, Option.map_map, Option.map_eq_bind]
    rfl
  unfold signedTextTraced signedText
  by_cases negative : v < 0
  · simp only [if_pos negative, negateTraced, Traced.bind_value, Traced.add, Traced.neg,
      Traced.perform_value, Option.bind_some]
    exact digits [minusChar] _
  · simp only [if_neg negative, Traced.lift_bind, Traced.bind_value]
    exact digits [] _

theorem writeLoopTraced_value (target : Target) (out : Out) (i : Int) (text : List UInt8) :
    (writeLoopTraced target out i text).value = putAll (store target) out text := by
  induction text generalizing out i with
  | nil => rfl
  | cons c rest ih =>
    simp only [writeLoopTraced, putAll_cons, Traced.bind_value, Traced.lift_value, Traced.add,
      Traced.perform_value, Option.bind_some, ih]

theorem writePaddedTraced_value (target : Target) (d : Directive) (toWrite : List UInt8)
    (tmpLen : Int) (out : Out) :
    (writePaddedTraced target d toWrite tmpLen out).value =
      writePadded target d toWrite tmpLen out := by
  simp only [writePaddedTraced, writePadded, Traced.bind_value, Traced.lift_value,
    writeLoopTraced_value]

/-- What the switch and the writing of vsnprintf_internal do for d and i. -/
theorem convertSignedTraced_value (target : Target) {d : Directive}
    (spec : d.spec = 100 ∨ d.spec = 105) (out : Out) (ap : VaList) :
    convertToBuffer target d out ap =
      (vaSigned d.longflag ap).bind (fun (v, ap) =>
        (convertSignedTraced target d v out).value.map (fun out => (out, ap))) := by
  unfold convertToBuffer tmpText
  rw [if_pos spec, Option.bind_assoc]
  congr 1
  funext ⟨v, ap⟩
  simp only [convertSignedTraced, Traced.bind_value, signedTextTraced_value,
    writePaddedTraced_value]
  cases signedText v <;> rfl

theorem emitUintWidthTraced_value (kernel : Kernel) (st : State) (v base : Nat) (upper : Bool)
    (width : Int) (zeroPad : Bool) :
    (emitUintWidthTraced kernel st v base upper width zeroPad).value =
      emitUintWidth kernel st v base upper width zeroPad := by
  simp only [emitUintWidthTraced, emitUintWidth, Traced.bind_value, digitsTraced_value,
    Traced.feed_value]
  congr 1
  funext tmp
  split
  · rw [Traced.feed_value]
    rfl
  · rfl

theorem emitIntWidthTraced_value (kernel : Kernel) (st : State) (v width : Int) (zeroPad : Bool) :
    (emitIntWidthTraced kernel st v width zeroPad).value =
      emitIntWidth kernel st v width zeroPad := by
  unfold emitIntWidthTraced emitIntWidth
  by_cases negative : v < 0
  · simp only [if_pos negative, Traced.bind_value, Traced.add, Traced.neg, Traced.perform_value,
      Option.bind_some, emitUintWidthTraced_value]
    rfl
  · simp only [if_neg negative, emitUintWidthTraced_value]

end AxiomeToolchain.Source.Format
