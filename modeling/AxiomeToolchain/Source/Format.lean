import AxiomeToolchain.Source.Stdio

/-!
# The two formatting engines

sdk/src/stdio.c:121-489. A format is the bytes of the string with its NUL;
`none` is a read past that NUL, a fetch past the last argument, or an access
outside a digit array. The scanner of flags, width, precision and length
modifiers is the same text in vsnprintf_internal and vprintf and stands here
once; their switches over the conversion are kept apart.
-/

set_option autoImplicit false

namespace AxiomeToolchain.Source.Format
open AxiomeToolchain.Library.CInt
open AxiomeToolchain.Library.Sink
open AxiomeToolchain.Source.Stdio

/-! ## Variadic arguments -/

/-- A slot of the argument area: its eight bytes and, where they are the address
of a string, that string. An `int` is the low half of its slot. -/
structure VaArg where
  word : BitVec 64
  text : CString

/-- The type named in a `va_arg`. -/
inductive Fetch where
  | int | long | unsignedInt | unsignedLong | pointer | string
  deriving DecidableEq, Repr

/-- The arguments left, and the fetches made. -/
structure VaList where
  args : List VaArg
  fetched : List Fetch

def vaArg (type : Fetch) (ap : VaList) : Option (VaArg × VaList) :=
  match ap.args with
  | [] => none
  | arg :: rest => some (arg, ⟨rest, ap.fetched ++ [type]⟩)

def vaSigned (longflag : Bool) (ap : VaList) : Option (Int × VaList) :=
  if longflag then (vaArg .long ap).map (fun (arg, ap) => (arg.word.toInt, ap))
  else (vaArg .int ap).map (fun (arg, ap) => ((arg.word.setWidth 32).toInt, ap))

def vaUnsigned (longflag : Bool) (ap : VaList) : Option (Nat × VaList) :=
  if longflag then (vaArg .unsignedLong ap).map (fun (arg, ap) => (arg.word.toNat, ap))
  else (vaArg .unsignedInt ap).map (fun (arg, ap) => ((arg.word.setWidth 32).toNat, ap))

/-- The string at the pointer, or "(null)". -/
def vaString (ap : VaList) : Option (List UInt8 × VaList) :=
  (vaArg .string ap).map (fun (arg, ap) =>
    (if arg.word = 0 then ascii "(null)" else arg.text.bytes, ap))

/-! ## The scanner -/

/-- What the scanner hands to the switch. -/
structure Directive where
  leftAlign : Bool
  zeroPad : Bool
  width : Int
  longflag : Bool
  spec : UInt8
  deriving DecidableEq, Repr

def isDigit (c : UInt8) : Bool := 48 ≤ c && c ≤ 57

def isFlag (c : UInt8) : Bool := c = minusChar || c = zeroChar

/-- 'l', 'h' or 'z'. -/
def isLength (c : UInt8) : Bool := c = 108 || c = 104 || c = 122

def scanFlags : List UInt8 → Bool → Bool → Option (Bool × Bool × List UInt8)
  | [], _, _ => none
  | c :: fmt, leftAlign, zeroPad =>
    if isFlag c then
      scanFlags fmt (leftAlign || c = minusChar) (zeroPad || c = zeroChar)
    else some (leftAlign, zeroPad, c :: fmt)

def scanWidth : List UInt8 → Int → Option (Int × List UInt8)
  | [], _ => none
  | c :: fmt, width =>
    if isDigit c then scanWidth fmt (wrapInt (wrapInt (width * 10) + (c.toNat - 48)))
    else some (width, c :: fmt)

def scanDigits : List UInt8 → Option (List UInt8)
  | [] => none
  | c :: fmt => if isDigit c then scanDigits fmt else some (c :: fmt)

def scanPrecision : List UInt8 → Option (List UInt8)
  | [] => none
  | c :: fmt => if c = 46 then scanDigits fmt else some (c :: fmt)

def scanLength : List UInt8 → Bool → Option (Bool × List UInt8)
  | [], _ => none
  | c :: fmt, longflag => if isLength c then scanLength fmt true else some (longflag, c :: fmt)

/-- From behind the '%' to the conversion: `some none` when the format ends first. -/
def scanDirective (fmt : List UInt8) : Option (Option (Directive × List UInt8)) :=
  (scanFlags fmt false false).bind (fun (leftAlign, zeroPad, fmt) =>
    if fmt.head? = some 0 then some none
    else (scanWidth fmt 0).bind (fun (width, fmt) =>
      if fmt.head? = some 0 then some none
      else (scanPrecision fmt).bind (fun fmt =>
        if fmt.head? = some 0 then some none
        else (scanLength fmt false).bind (fun (longflag, fmt) =>
          if fmt.head? = some 0 then some none
          else fmt.head?.map (fun spec => some (⟨leftAlign, zeroPad, width, longflag, spec⟩, fmt))))))

/-- `for (; *fmt; fmt++)` with the two things an engine does in it: put one
byte, and convert one directive. -/
def scanLoop {σ : Type} (put : σ → UInt8 → Option σ)
    (convert : Directive → σ → VaList → Option (σ × VaList)) :
    Nat → List UInt8 → σ → VaList → Option (σ × VaList)
  | 0, _, _, _ => none
  | _ + 1, [], _, _ => none
  | budget + 1, c :: fmt, st, ap =>
    if c = 0 then some (st, ap)
    else if c ≠ percentChar then
      (put st c).bind (fun st => scanLoop put convert budget fmt st ap)
    else if fmt.head? = some 0 then some (st, ap)
    else if fmt.head? = some percentChar then
      (put st percentChar).bind (fun st => scanLoop put convert budget fmt.tail st ap)
    else
      (scanDirective fmt).bind (fun found =>
        match found with
        | none => some (st, ap)
        | some (d, fmt) =>
          (convert d st ap).bind (fun (st, ap) => scanLoop put convert budget fmt.tail st ap))

/-! ## vsnprintf_internal -/

/-- `pos`, and the stores into `str` so far: index and byte. -/
structure Out where
  pos : Nat
  stores : List (Nat × UInt8)

/-- The last argument of vsnprintf_internal and its destination. -/
structure Target where
  str : Nat
  size : Nat
  doWrite : Bool

/-- `if (do_write && str && pos < size - 1) str[pos] = c; pos++`. -/
def store (target : Target) (out : Out) (c : UInt8) : Option Out :=
  some
    { pos := u64Add out.pos 1
      stores :=
        if target.doWrite = true ∧ target.str ≠ 0 ∧ out.pos < u64Sub target.size 1 then
          out.stores ++ [(out.pos, c)]
        else out.stores }

def decimalDigit (i : Nat) : UInt8 := 48 + UInt8.ofNat i

/-- `if (v == 0) digits[i++] = '0'; else while (v) …` and the copy to tmp_buf. -/
def tmpDigits (digit : Nat → UInt8) (base v : Nat) : Option (List UInt8) :=
  (if v = 0 then some [zeroChar] else digitLoop digit base 24 v).map List.reverse

/-- `case 'd'` behind the va_arg. -/
def signedText (v : Int) : Option (List UInt8) :=
  let sign := if v < 0 then [minusChar] else []
  let v := if v < 0 then wrapLong (wrapLong (-(wrapLong (v + 1))) + 1) else v
  (tmpDigits decimalDigit 10 (asUnsigned v)).map (fun digits => sign ++ digits)

/-- The switch: the text to write and tmp_len. -/
def tmpText (d : Directive) (ap : VaList) : Option ((List UInt8 × Int) × VaList) :=
  let measured (text : List UInt8) : List UInt8 × Int := (text, text.length)
  if d.spec = 100 ∨ d.spec = 105 then
    (vaSigned d.longflag ap).bind (fun (v, ap) =>
      (signedText v).map (fun text => (measured text, ap)))
  else if d.spec = 117 ∨ d.spec = 120 ∨ d.spec = 88 then
    (vaUnsigned d.longflag ap).bind (fun (v, ap) =>
      let base := if d.spec = 117 then 10 else 16
      (tmpDigits (digitOf (d.spec = 88)) base v).map (fun digits => (measured digits, ap)))
  else if d.spec = 112 then
    (vaArg .pointer ap).bind (fun (arg, ap) =>
      (tmpDigits (digitOf false) 16 arg.word.toNat).map (fun digits =>
        (measured (ascii "0x" ++ digits), ap)))
  else if d.spec = 115 then
    (vaString ap).map (fun (s, ap) => ((s, wrapInt s.length), ap))
  else if d.spec = 99 then
    (vaArg .int ap).map (fun (arg, ap) => (measured [UInt8.ofNat arg.word.toNat], ap))
  else some (measured [percentChar, d.spec], ap)

/-- The padding and writing that follows the switch. -/
def writePadded (target : Target) (d : Directive) (toWrite : List UInt8) (tmpLen : Int) (out : Out) :
    Option Out :=
  let padChar := if d.zeroPad then zeroChar else spaceChar
  (if d.leftAlign then some out
    else putAll (store target) out (padding d.width tmpLen padChar)).bind (fun out =>
  (putAll (store target) out (toWrite.take tmpLen.toNat)).bind (fun out =>
  if d.leftAlign then putAll (store target) out (padding d.width tmpLen spaceChar) else some out))

def convertToBuffer (target : Target) (d : Directive) (out : Out) (ap : VaList) :
    Option (Out × VaList) :=
  (tmpText d ap).bind (fun ((toWrite, tmpLen), ap) =>
    (writePadded target d toWrite tmpLen out).map (fun out => (out, ap)))

/-- The stores, the arguments fetched and the value returned. -/
def vsnprintfInternal (target : Target) (fmt : CString) (ap : VaList) :
    Option (List (Nat × UInt8) × VaList × Int) :=
  (scanLoop (store target) (convertToBuffer target) (fmt.terminated.length) fmt.terminated ⟨0, []⟩
      ap).map (fun (out, ap) =>
    let last := u64Sub target.size 1
    (if target.doWrite = true ∧ target.str ≠ 0 ∧ target.size > 0 then
      out.stores ++ [(if out.pos < last then out.pos else last, 0)]
      else out.stores, ap, wrapInt out.pos))

def sprintf (str : Nat) (fmt : CString) (args : List VaArg) :
    Option (List (Nat × UInt8) × VaList × Int) :=
  vsnprintfInternal ⟨str, wordModulus - 1, true⟩ fmt ⟨args, []⟩

def snprintf (str size : Nat) (fmt : CString) (args : List VaArg) :
    Option (List (Nat × UInt8) × VaList × Int) :=
  vsnprintfInternal ⟨str, size, true⟩ fmt ⟨args, []⟩

def vsnprintf (str size : Nat) (fmt : CString) (ap : VaList) :
    Option (List (Nat × UInt8) × VaList × Int) :=
  vsnprintfInternal ⟨str, size, true⟩ fmt ap

/-! ## vprintf -/

def convertToStdout (kernel : Kernel) (d : Directive) (st : State) (ap : VaList) :
    Option (State × VaList) :=
  if d.spec = 100 ∨ d.spec = 105 then
    (vaSigned d.longflag ap).bind (fun (v, ap) =>
      (emitIntWidth kernel st v d.width d.zeroPad).map (fun st => (st, ap)))
  else if d.spec = 117 then
    (vaUnsigned d.longflag ap).bind (fun (v, ap) =>
      (emitUintWidth kernel st v 10 false d.width d.zeroPad).map (fun st => (st, ap)))
  else if d.spec = 120 then
    (vaUnsigned d.longflag ap).bind (fun (v, ap) =>
      (emitUintWidth kernel st v 16 false d.width d.zeroPad).map (fun st => (st, ap)))
  else if d.spec = 88 then
    (vaUnsigned d.longflag ap).bind (fun (v, ap) =>
      (emitUintWidth kernel st v 16 true d.width d.zeroPad).map (fun st => (st, ap)))
  else if d.spec = 112 then
    (vaArg .pointer ap).bind (fun (arg, ap) =>
      (emitStr kernel st (ascii "0x")).bind (fun st =>
        (emitUint kernel st arg.word.toNat 16 false).map (fun st => (st, ap))))
  else if d.spec = 115 then
    (vaString ap).bind (fun (s, ap) =>
      (emitStrWidth kernel st s d.width d.leftAlign).map (fun st => (st, ap)))
  else if d.spec = 99 then
    (vaArg .int ap).bind (fun (arg, ap) =>
      (emit kernel st (UInt8.ofNat arg.word.toNat)).map (fun st => (st, ap)))
  else
    (emit kernel st percentChar).bind (fun st => (emit kernel st d.spec).map (fun st => (st, ap)))

/-- The state, the arguments fetched and the value returned. -/
def vprintf (kernel : Kernel) (st : State) (fmt : CString) (ap : VaList) :
    Option (State × VaList × Int) :=
  (scanLoop (emit kernel) (convertToStdout kernel) fmt.terminated.length fmt.terminated st ap).map
    (fun (st, ap) => (flush kernel st, ap, 0))

def printf (kernel : Kernel) (st : State) (fmt : CString) (args : List VaArg) :
    Option (State × VaList × Int) :=
  vprintf kernel st fmt ⟨args, []⟩

/-! ## vfprintf -/

def bufSize : Nat := 1024

/-- The array `buf` on the stack of vfprintf: where it is, and what it holds on entry. -/
structure Frame where
  address : Nat
  nonnull : address ≠ 0
  held : Vector UInt8 bufSize

/-- One store into an array. -/
def storeInto (buf : List UInt8) (entry : Nat × UInt8) : Option (List UInt8) :=
  if entry.1 < buf.length then some (buf.set entry.1 entry.2) else none

/-- vsnprintf_internal into `buf`: the array after it, the arguments fetched and `n`. -/
def formatIntoBuf (frame : Frame) (fmt : CString) (ap : VaList) :
    Option (List UInt8 × VaList × Int) :=
  (vsnprintfInternal ⟨frame.address, bufSize, true⟩ fmt ap).bind (fun (stores, ap, n) =>
    (putAll storeInto frame.held.toList stores).map (fun buf => (buf, ap, n)))

def vfprintf (kernel : Kernel) (st : State) (frame : Frame) (stream : Stream) (fmt : CString)
    (ap : VaList) : Option (State × VaList × Int) :=
  (formatIntoBuf frame fmt ap).bind (fun (buf, ap, n) =>
    (if n > 0 then (fwrite kernel st (some buf) 1 n.toNat stream).map (fun r => r.1)
      else some st).map (fun st => (st, ap, n)))

def fprintf (kernel : Kernel) (st : State) (frame : Frame) (stream : Stream) (fmt : CString)
    (args : List VaArg) : Option (State × VaList × Int) :=
  vfprintf kernel st frame stream fmt ⟨args, []⟩

end AxiomeToolchain.Source.Format
