import AxiomeToolchain.Source.FormatGrammar

/-!
# The bytes each engine makes of a directive

Both engines feed a sink, vsnprintf_internal its stores and vprintf emit. Here
each conversion is the list of bytes it feeds: `bufferText` and `stdoutText`,
`int` wrap-around included. `printf_items` and `vsnprintf_items` say that a
whole run feeds the concatenation, over the pieces paired with their arguments.
-/

set_option autoImplicit false

namespace AxiomeToolchain.Source.Format
open AxiomeToolchain.Library.CInt
open AxiomeToolchain.Library.Sink
open AxiomeToolchain.Source.Stdio

/-! ## Digits -/

/-- `v` in `base`, highest digit first. -/
def numeral (upper : Bool) (base v : Nat) : List UInt8 :=
  if v = 0 then [zeroChar] else ((Nat.digits base v).map (digitOf upper)).reverse

theorem digitLoop_eq {base : Nat} (digit : Nat → UInt8) (two : 1 < base) (room v : Nat)
    (fits : v < base ^ room) :
    digitLoop digit base room v = some ((Nat.digits base v).map digit) := by
  induction room generalizing v with
  | zero =>
    cases Nat.lt_one_iff.mp fits
    simp [digitLoop]
  | succ room ih =>
    cases v with
    | zero => simp [digitLoop]
    | succ v =>
      have smaller : (v + 1) / base < base ^ room := Nat.div_lt_of_lt_mul (by rwa [← Nat.pow_succ'])
      rw [digitLoop, ih _ smaller, Nat.digits_def' two (Nat.succ_pos v)]
      rfl

/-- 24 places hold every 64-bit number in both bases. -/
theorem base_pow_room {base v : Nat} (wide : 10 ≤ base) (fits : v < wordModulus) : v < base ^ 24 :=
  calc v < wordModulus := fits
    _ ≤ 10 ^ 24 := by decide
    _ ≤ base ^ 24 := Nat.pow_le_pow_left wide 24

theorem decimalDigit_eq (i : Nat) (small : i < 10) : decimalDigit i = digitOf false i := by
  interval_cases i <;> rfl

theorem tmpDigits_eq {base v : Nat} (upper : Bool) (wide : 10 ≤ base) (fits : v < wordModulus) :
    tmpDigits (digitOf upper) base v = some (numeral upper base v) := by
  unfold tmpDigits numeral
  split
  · rfl
  · rw [digitLoop_eq _ (by omega) 24 v (base_pow_room wide fits)]
    rfl

theorem tmpDigits_decimal {v : Nat} (fits : v < wordModulus) :
    tmpDigits decimalDigit 10 v = some (numeral false 10 v) := by
  rw [← tmpDigits_eq false (Nat.le_refl 10) fits]
  unfold tmpDigits
  have room := base_pow_room (Nat.le_refl 10) fits
  rw [digitLoop_eq _ (by decide) 24 v room, digitLoop_eq _ (by decide) 24 v room]
  have same : (Nat.digits 10 v).map decimalDigit = (Nat.digits 10 v).map (digitOf false) :=
    List.map_congr_left (fun i member => decimalDigit_eq i (Nat.digits_lt_base (by decide) member))
  rw [same]

/-! ## Arguments -/

/-- What the conversion fetches; `none` for an unknown one. -/
def Directive.fetch (d : Directive) : Option Fetch :=
  if d.spec = 100 ∨ d.spec = 105 then some (if d.longflag then .long else .int)
  else if d.spec = 117 ∨ d.spec = 120 ∨ d.spec = 88 then
    some (if d.longflag then .unsignedLong else .unsignedInt)
  else if d.spec = 112 then some .pointer
  else if d.spec = 115 then some .string
  else if d.spec = 99 then some .int
  else none

/-- A piece with the argument it uses. -/
inductive Item where
  | literal (c : UInt8)
  | convert (d : Directive) (arg : VaArg)
  | unknown (d : Directive)

/-- The pieces with their arguments, and the argument list after them; `none`
when there are too few. -/
def items : List Piece → VaList → Option (List Item × VaList)
  | [], ap => some ([], ap)
  | .literal c :: ps, ap => (items ps ap).map (fun (its, ap) => (.literal c :: its, ap))
  | .directive d :: ps, ap =>
    match d.fetch with
    | none => (items ps ap).map (fun (its, ap) => (.unknown d :: its, ap))
    | some type =>
      (vaArg type ap).bind (fun (arg, ap) =>
        (items ps ap).map (fun (its, ap) => (.convert d arg :: its, ap)))

def VaArg.signed (arg : VaArg) (longflag : Bool) : Int :=
  if longflag then arg.word.toInt else (arg.word.setWidth 32).toInt

def VaArg.unsigned (arg : VaArg) (longflag : Bool) : Nat :=
  if longflag then arg.word.toNat else (arg.word.setWidth 32).toNat

def VaArg.string (arg : VaArg) : List UInt8 :=
  if arg.word = 0 then ascii "(null)" else arg.text.bytes

/-- The text of a conversion without padding. -/
def Directive.text (d : Directive) (arg : VaArg) : List UInt8 :=
  if d.spec = 100 ∨ d.spec = 105 then
    (if arg.signed d.longflag < 0 then [minusChar] else []) ++
      numeral false 10 (arg.signed d.longflag).natAbs
  else if d.spec = 117 then numeral false 10 (arg.unsigned d.longflag)
  else if d.spec = 120 then numeral false 16 (arg.unsigned d.longflag)
  else if d.spec = 88 then numeral true 16 (arg.unsigned d.longflag)
  else if d.spec = 112 then ascii "0x" ++ numeral false 16 arg.word.toNat
  else if d.spec = 115 then arg.string
  else [UInt8.ofNat arg.word.toNat]

def Directive.unknownText (d : Directive) : List UInt8 := [percentChar, d.spec]

variable {σ : Type} {put : σ → UInt8 → Option σ}
  {convert : Directive → σ → VaList → Option (σ × VaList)} {text : Item → List UInt8}

/-- The conversion fetches its argument and feeds the text of the item. -/
def Converts (put : σ → UInt8 → Option σ) (convert : Directive → σ → VaList → Option (σ × VaList))
    (text : Item → List UInt8) : Prop :=
  ∀ (d : Directive) (st : σ) (ap : VaList), convert d.stored st ap =
    match d.fetch with
    | none => (putAll put st (text (.unknown d))).map (fun st => (st, ap))
    | some type =>
      (vaArg type ap).bind (fun (arg, ap) =>
        (putAll put st (text (.convert d arg))).map (fun st => (st, ap)))

/-- Feeding one item and then the rest is feeding them together. -/
theorem putAll_items (it : Item) (ps : List Piece) (st : σ) (ap : VaList) :
    (putAll put st (text it)).bind (fun st =>
        (items ps ap).bind (fun (its, ap) =>
          (putAll put st (its.flatMap text)).map (fun st => (st, ap)))) =
      ((items ps ap).map (fun (its, ap) => (it :: its, ap))).bind (fun (its, ap) =>
        (putAll put st (its.flatMap text)).map (fun st => (st, ap))) := by
  cases items ps ap with
  | none => exact Option.bind_fun_none _
  | some rest =>
    simp only [Option.bind_some, Option.map_some, List.flatMap_cons, putAll_append, Option.map_bind]
    rfl

/-- A run over the pieces feeds the texts of the items, one after the other. -/
theorem runPieces_items (literal : ∀ c, text (.literal c) = [c]) (converts : Converts put convert text)
    (ps : List Piece) (st : σ) (ap : VaList) :
    runPieces put convert ps st ap =
      (items ps ap).bind (fun (its, ap) =>
        (putAll put st (its.flatMap text)).map (fun st => (st, ap))) := by
  induction ps generalizing st ap with
  | nil => rfl
  | cons piece ps ih =>
    cases piece with
    | literal c =>
      simp only [runPieces, items, ih]
      rw [← putAll_items, literal, putAll_singleton]
    | directive d =>
      simp only [runPieces, items, ih]
      rw [converts d st ap]
      cases d.fetch with
      | none =>
        simp only
        rw [← putAll_items, Option.bind_map]
        rfl
      | some type =>
        simp only
        cases vaArg type ap with
        | none => rfl
        | some fetched =>
          obtain ⟨arg, ap⟩ := fetched
          simp only [Option.bind_some]
          rw [← putAll_items, Option.bind_map]
          rfl

/-! ## The texts -/

/-- The padding at the end of vsnprintf_internal's directive. -/
def Directive.padded (d : Directive) (len : Int) (text : List UInt8) : List UInt8 :=
  if d.leftAlign then text.take len.toNat ++ padding d.width len spaceChar
  else padding d.width len (if d.zeroPad then zeroChar else spaceChar) ++ text.take len.toNat

def Item.bufferText : Item → List UInt8
  | .literal c => [c]
  | .convert d arg => d.stored.padded (wrapInt (d.text arg).length) (d.text arg)
  | .unknown d => d.stored.padded (wrapInt d.unknownText.length) d.unknownText

/-- What emit_uint_width makes of the digits. -/
def uintText (digits : List UInt8) (width : Int) (zeroPad : Bool) : List UInt8 :=
  let padCount := wrapInt (width - digits.length)
  (if padCount > 0 then
    List.replicate (countdown padCount) (if zeroPad then zeroChar else spaceChar) else []) ++ digits

/-- What vprintf makes of a conversion. -/
def Directive.stdoutText (d : Directive) (arg : VaArg) : List UInt8 :=
  let len := wrapInt (d.text arg).length
  if d.spec = 100 ∨ d.spec = 105 then
    let digits := numeral false 10 (arg.signed d.longflag).natAbs
    if arg.signed d.longflag < 0 then
      minusChar :: uintText digits (if d.width > 0 then d.width - 1 else d.width) d.zeroPad
    else uintText digits d.width d.zeroPad
  else if d.spec = 117 ∨ d.spec = 120 ∨ d.spec = 88 then uintText (d.text arg) d.width d.zeroPad
  else if d.spec = 115 then
    if d.leftAlign then d.text arg ++ padding d.width len spaceChar
    else padding d.width len spaceChar ++ d.text arg
  else d.text arg

def Item.stdoutText : Item → List UInt8
  | .literal c => [c]
  | .convert d arg => d.stored.stdoutText arg
  | .unknown d => d.unknownText

/-! ## vsnprintf_internal -/

theorem vaSigned_eq (longflag : Bool) (ap : VaList) :
    vaSigned longflag ap =
      (vaArg (if longflag then .long else .int) ap).map
        (fun (arg, ap) => (arg.signed longflag, ap)) := by
  cases longflag <;> rfl

theorem vaUnsigned_eq (longflag : Bool) (ap : VaList) :
    vaUnsigned longflag ap =
      (vaArg (if longflag then .unsignedLong else .unsignedInt) ap).map
        (fun (arg, ap) => (arg.unsigned longflag, ap)) := by
  cases longflag <;> rfl

theorem VaArg.signed_range (arg : VaArg) (longflag : Bool) :
    -9223372036854775808 ≤ arg.signed longflag ∧ arg.signed longflag ≤ 9223372036854775807 := by
  have low := BitVec.le_toInt arg.word
  have high := BitVec.toInt_lt (x := arg.word)
  have low32 := BitVec.le_toInt (arg.word.setWidth 32)
  have high32 := BitVec.toInt_lt (x := arg.word.setWidth 32)
  unfold VaArg.signed
  split <;> omega

theorem VaArg.unsigned_lt (arg : VaArg) (longflag : Bool) : arg.unsigned longflag < wordModulus := by
  have long := arg.word.isLt
  have int := (arg.word.setWidth 32).isLt
  unfold VaArg.unsigned wordModulus
  split <;> omega

/-- The magnitude both engines print, from either way of negating. -/
theorem asUnsigned_nonneg {v : Int} (nonneg : ¬ v < 0) (high : v ≤ 9223372036854775807) :
    asUnsigned v = v.natAbs := by
  unfold asUnsigned
  omega

theorem asUnsigned_negated {v : Int} (negative : v < 0) (low : -9223372036854775808 ≤ v) :
    asUnsigned (wrapLong (wrapLong (-(wrapLong (v + 1))) + 1)) = v.natAbs := by
  unfold asUnsigned wrapLong
  omega

theorem u64Add_negated {v : Int} (negative : v < 0) (low : -9223372036854775808 ≤ v) :
    u64Add (asUnsigned (wrapLong (-(wrapLong (v + 1))))) 1 = v.natAbs := by
  unfold u64Add asUnsigned wrapLong wordModulus
  omega

theorem natAbs_lt {v : Int} (low : -9223372036854775808 ≤ v) (high : v ≤ 9223372036854775807) :
    v.natAbs < wordModulus := by
  unfold wordModulus
  omega

theorem numeral_length_le {base v : Nat} (upper : Bool) (wide : 10 ≤ base) (fits : v < wordModulus) :
    (numeral upper base v).length ≤ 24 := by
  unfold numeral
  split
  · decide
  · rw [List.length_reverse, List.length_map, Nat.digits_length_le_iff (by omega)]
    exact base_pow_room wide fits

theorem measured_short {text : List UInt8} (short : text.length ≤ 26) :
    (text.length : Int) = wrapInt text.length :=
  (wrapInt_of_range (by omega) (by omega)).symm

theorem measured_eq (text : List UInt8) (short : text.length ≤ 26) :
    (text, (text.length : Int)) = (text, wrapInt text.length) :=
  congrArg (Prod.mk text) (measured_short short)

/-- Sign and magnitude, also for LONG_MIN. -/
theorem signedText_eq {v : Int} (low : -9223372036854775808 ≤ v) (high : v ≤ 9223372036854775807) :
    signedText v = some ((if v < 0 then [minusChar] else []) ++ numeral false 10 v.natAbs) := by
  have digits := tmpDigits_decimal (natAbs_lt low high)
  by_cases negative : v < 0
  · simp only [signedText, if_pos negative]
    rw [asUnsigned_negated negative low, digits]
    rfl
  · simp only [signedText, if_neg negative]
    rw [asUnsigned_nonneg negative high, digits]
    rfl

theorem signedText_length {v : Int} (low : -9223372036854775808 ≤ v)
    (high : v ≤ 9223372036854775807) :
    ((if v < 0 then [minusChar] else []) ++ numeral false 10 v.natAbs).length ≤ 26 := by
  have digits := numeral_length_le false (Nat.le_refl 10) (natAbs_lt low high)
  rw [List.length_append]
  split <;> simp only [List.length_cons, List.length_nil] <;> omega

theorem tmpDigits_signed (longflag : Bool) (ap : VaList) :
    (vaSigned longflag ap).bind (fun (v, ap) =>
        (signedText v).map (fun text => ((text, (text.length : Int)), ap))) =
      (vaArg (if longflag then .long else .int) ap).map (fun (arg, ap) =>
        let text := (if arg.signed longflag < 0 then [minusChar] else []) ++
          numeral false 10 (arg.signed longflag).natAbs
        ((text, wrapInt text.length), ap)) := by
  rw [vaSigned_eq, Option.bind_map]
  cases vaArg _ ap with
  | none => rfl
  | some fetched =>
    obtain ⟨low, high⟩ := fetched.1.signed_range longflag
    have short := signedText_length low high
    simp only [Option.bind_some, Function.comp_apply, Option.map_some, signedText_eq low high]
    rw [measured_eq _ short]

theorem tmpDigits_unsigned {base : Nat} (upper longflag : Bool) (wide : 10 ≤ base) (ap : VaList) :
    (vaUnsigned longflag ap).bind (fun (v, ap) =>
        (tmpDigits (digitOf upper) base v).map (fun digits => ((digits, (digits.length : Int)), ap))) =
      (vaArg (if longflag then .unsignedLong else .unsignedInt) ap).map (fun (arg, ap) =>
        ((numeral upper base (arg.unsigned longflag),
          wrapInt (numeral upper base (arg.unsigned longflag)).length), ap)) := by
  rw [vaUnsigned_eq, Option.bind_map]
  cases vaArg _ ap with
  | none => rfl
  | some fetched =>
    have fits := fetched.1.unsigned_lt longflag
    have short := numeral_length_le upper wide fits
    simp only [Option.bind_some, Function.comp_apply, Option.map_some, tmpDigits_eq upper wide fits,
      measured_eq _ (Nat.le_trans short (by decide : 24 ≤ 26))]

theorem tmpDigits_pointer (ap : VaList) :
    (vaArg .pointer ap).bind (fun (arg, ap) =>
        (tmpDigits (digitOf false) 16 arg.word.toNat).map (fun digits =>
          ((ascii "0x" ++ digits, ((ascii "0x" ++ digits).length : Int)), ap))) =
      (vaArg .pointer ap).map (fun (arg, ap) =>
        ((ascii "0x" ++ numeral false 16 arg.word.toNat,
          wrapInt (ascii "0x" ++ numeral false 16 arg.word.toNat).length), ap)) := by
  cases vaArg _ ap with
  | none => rfl
  | some fetched =>
    have wide : 10 ≤ 16 := by decide
    have short := numeral_length_le false wide fetched.1.word.isLt
    have shorter : (ascii "0x" ++ numeral false 16 fetched.1.word.toNat).length ≤ 26 := by
      rw [List.length_append]
      exact Nat.add_le_add (show (ascii "0x").length ≤ 2 by decide) short
    simp only [Option.bind_some, Option.map_some, tmpDigits_eq false wide fetched.1.word.isLt,
      measured_eq _ shorter]

/-- The switch of vsnprintf_internal leaves the text and, in tmp_len, its length. -/
theorem tmpText_eq (d : Directive) (ap : VaList) :
    tmpText d.stored ap =
      match d.fetch with
      | none => some ((d.unknownText, wrapInt d.unknownText.length), ap)
      | some type =>
        (vaArg type ap).map (fun (arg, ap) => ((d.text arg, wrapInt (d.text arg).length), ap)) := by
  have wide : 10 ≤ 16 := by decide
  by_cases signed : d.spec = 100 ∨ d.spec = 105
  · simp only [tmpText, Directive.stored_spec, Directive.fetch, Directive.text, if_pos signed]
    exact tmpDigits_signed d.longflag ap
  by_cases u : d.spec = 117
  · have decimal := tmpDigits_unsigned false d.longflag (Nat.le_refl 10) ap
    simpa [tmpText, Directive.fetch, Directive.text, u] using decimal
  by_cases x : d.spec = 120
  · have hex := tmpDigits_unsigned false d.longflag wide ap
    simpa [tmpText, Directive.fetch, Directive.text, x] using hex
  by_cases upper : d.spec = 88
  · have hex := tmpDigits_unsigned true d.longflag wide ap
    simpa [tmpText, Directive.fetch, Directive.text, upper] using hex
  by_cases pointer : d.spec = 112
  · simpa [tmpText, Directive.fetch, Directive.text, pointer] using tmpDigits_pointer ap
  by_cases string : d.spec = 115
  · simp [tmpText, Directive.fetch, Directive.text, string, vaString, VaArg.string, Function.comp_def]
  by_cases char : d.spec = 99
  · have one : wrapInt 1 = 1 := by decide
    simp [tmpText, Directive.fetch, Directive.text, char, one]
  · have two : wrapInt 2 = 2 := by decide
    simp [tmpText, Directive.fetch, Directive.unknownText, not_or.mp signed, u, x, upper, pointer,
      string, char, two]

theorem writePadded_eq (target : Target) (d : Directive) (text : List UInt8) (len : Int) (out : Out) :
    writePadded target d text len out = putAll (store target) out (d.padded len text) := by
  cases left : d.leftAlign with
  | true => simp [writePadded, Directive.padded, left, putAll_append]
  | false => simp [writePadded, Directive.padded, left, putAll_append]

theorem convertToBuffer_converts (target : Target) :
    Converts (store target) (convertToBuffer target) Item.bufferText := by
  intro d out ap
  rw [convertToBuffer, tmpText_eq]
  cases d.fetch with
  | none => simp only [Option.bind_some, writePadded_eq, Item.bufferText]
  | some type =>
    simp only [Option.bind_map]
    cases vaArg type ap with
    | none => rfl
    | some fetched =>
      simp only [Option.bind_some, Function.comp_apply, writePadded_eq, Item.bufferText]

/-- A run of vsnprintf_internal's loop, as stores of the items' texts. -/
theorem vsnprintf_items (target : Target) (fmt : CString) (out : Out) (ap : VaList) :
    scanLoop (store target) (convertToBuffer target) fmt.terminated.length fmt.terminated out ap =
      (items (pieces fmt) ap).bind (fun (its, ap) =>
        (putAll (store target) out (its.flatMap Item.bufferText)).map (fun out => (out, ap))) := by
  rw [scanLoop_pieces, runPieces_items (fun _ => rfl) (convertToBuffer_converts target)]

/-! ## vprintf -/

section Stdout
variable (kernel : Kernel)

theorem emitUintWidth_eq (st : State) {v base : Nat} (upper : Bool) (wide : 10 ≤ base)
    (fits : v < wordModulus) (width : Int) (zeroPad : Bool) :
    emitUintWidth kernel st v base upper width zeroPad =
      putAll (emit kernel) st (uintText (numeral upper base v) width zeroPad) := by
  have digits : (if v = 0 then some [zeroChar] else digitLoop (digitOf upper) base 24 v) =
      some (numeral upper base v).reverse := by
    have room := tmpDigits_eq upper wide fits
    unfold tmpDigits at room
    obtain ⟨tmp, found, reversed⟩ := Option.map_eq_some_iff.mp room
    rw [found, ← reversed, List.reverse_reverse]
  simp only [emitUintWidth, digits, Option.bind_some, List.length_reverse, List.reverse_reverse,
    uintText, putAll_append]
  split <;> rfl

theorem emitIntWidth_eq (st : State) {v : Int} (low : -9223372036854775808 ≤ v)
    (high : v ≤ 9223372036854775807) (width : Int) (zeroPad : Bool) :
    emitIntWidth kernel st v width zeroPad =
      putAll (emit kernel) st
        (if v < 0 then
          minusChar :: uintText (numeral false 10 v.natAbs) (if width > 0 then width - 1 else width)
            zeroPad
        else uintText (numeral false 10 v.natAbs) width zeroPad) := by
  have fits := natAbs_lt low high
  by_cases negative : v < 0
  · simp only [emitIntWidth, if_pos negative, u64Add_negated negative low, putAll_cons,
      emitUintWidth_eq kernel _ false (Nat.le_refl 10) fits]
  · simp only [emitIntWidth, if_neg negative, asUnsigned_nonneg negative high,
      emitUintWidth_eq kernel _ false (Nat.le_refl 10) fits]

theorem emitUint_eq (st : State) {v base : Nat} (upper : Bool) (wide : 10 ≤ base)
    (fits : v < wordModulus) :
    emitUint kernel st v base upper = putAll (emit kernel) st (numeral upper base v) := by
  have short := numeral_length_le upper wide fits
  have no_pad : ¬ wrapInt (0 - (numeral upper base v).length) > 0 := by
    rw [wrapInt_of_range (by omega) (by omega)]
    omega
  rw [emitUint, emitUintWidth_eq kernel st upper wide fits, uintText, if_neg no_pad]
  rfl

theorem emitStrWidth_eq (st : State) (s : List UInt8) (width : Int) (leftAlign : Bool) :
    emitStrWidth kernel st s width leftAlign =
      putAll (emit kernel) st
        (if leftAlign then s ++ padding width (wrapInt s.length) spaceChar
        else padding width (wrapInt s.length) spaceChar ++ s) := by
  generalize len_eq : wrapInt s.length = len
  cases leftAlign with
  | true => simp [emitStrWidth, emitStr, len_eq, putAll_append]
  | false => simp [emitStrWidth, emitStr, len_eq, putAll_append]

/-- What the switch of vprintf does, for a directive with any width. -/
theorem convertToStdout_eq (d : Directive) (st : State) (ap : VaList) :
    convertToStdout kernel d st ap =
      match d.fetch with
      | none => (putAll (emit kernel) st d.unknownText).map (fun st => (st, ap))
      | some type =>
        (vaArg type ap).bind (fun (arg, ap) =>
          (putAll (emit kernel) st (d.stdoutText arg)).map (fun st => (st, ap))) := by
  have wide : 10 ≤ 16 := by decide
  have unsigned_fits (arg : VaArg) := arg.unsigned_lt d.longflag
  by_cases signed : d.spec = 100 ∨ d.spec = 105
  · have emitted (arg : VaArg) (st : State) :=
      emitIntWidth_eq kernel st (arg.signed_range d.longflag).1 (arg.signed_range d.longflag).2
        d.width d.zeroPad
    simp only [convertToStdout, Directive.fetch, Directive.stdoutText, if_pos signed, vaSigned_eq,
      Option.bind_map, Function.comp_def, emitted]
  by_cases u : d.spec = 117
  · have emitted (arg : VaArg) (st : State) :=
      emitUintWidth_eq kernel st false (Nat.le_refl 10) (unsigned_fits arg) d.width d.zeroPad
    simp [convertToStdout, Directive.fetch, Directive.stdoutText, Directive.text, u, vaUnsigned_eq,
      Option.bind_map, emitted]
  by_cases x : d.spec = 120
  · have emitted (arg : VaArg) (st : State) :=
      emitUintWidth_eq kernel st false wide (unsigned_fits arg) d.width d.zeroPad
    simp [convertToStdout, Directive.fetch, Directive.stdoutText, Directive.text, x, vaUnsigned_eq,
      Option.bind_map, emitted]
  by_cases upper : d.spec = 88
  · have emitted (arg : VaArg) (st : State) :=
      emitUintWidth_eq kernel st true wide (unsigned_fits arg) d.width d.zeroPad
    simp [convertToStdout, Directive.fetch, Directive.stdoutText, Directive.text, upper, vaUnsigned_eq,
      Option.bind_map, emitted]
  by_cases pointer : d.spec = 112
  · have emitted (arg : VaArg) (st : State) := emitUint_eq kernel st false wide arg.word.isLt
    simp [convertToStdout, Directive.fetch, Directive.stdoutText, Directive.text, pointer, emitStr,
      putAll_append, Option.map_bind, emitted]
  by_cases string : d.spec = 115
  · simp [convertToStdout, Directive.fetch, Directive.stdoutText, Directive.text, string, vaString,
      VaArg.string, Option.bind_map, emitStrWidth_eq]
  by_cases char : d.spec = 99
  · simp [convertToStdout, Directive.fetch, Directive.stdoutText, Directive.text, char,
      putAll_singleton]
  · simp [convertToStdout, Directive.fetch, Directive.unknownText, not_or.mp signed, u, x, upper,
      pointer, string, char, putAll_cons, Option.map_bind]

theorem convertToStdout_converts :
    Converts (emit kernel) (convertToStdout kernel) Item.stdoutText := fun d st ap =>
  convertToStdout_eq kernel d.stored st ap

/-- A run of vprintf's loop, as emits of the items' texts. -/
theorem vprintf_items (fmt : CString) (st : State) (ap : VaList) :
    scanLoop (emit kernel) (convertToStdout kernel) fmt.terminated.length fmt.terminated st ap =
      (items (pieces fmt) ap).bind (fun (its, ap) =>
        (putAll (emit kernel) st (its.flatMap Item.stdoutText)).map (fun st => (st, ap))) := by
  rw [scanLoop_pieces, runPieces_items (fun _ => rfl) (convertToStdout_converts kernel)]

end Stdout

end AxiomeToolchain.Source.Format
