import AxiomeToolchain.Library.CInt
import AxiomeToolchain.Library.Sink

/-!
# Streams of the C library

sdk/src/stdio.c:8-119,491-557,645-699 over a kernel that answers each read and
write system call as it likes. `none` is an access outside an object: an index
outside outbuf or a digit array, or a write(2) from beyond the caller's buffer.
A loop that emits the elements of an array is `putAll emit`.
-/

set_option autoImplicit false

namespace AxiomeToolchain.Source.Stdio
open AxiomeToolchain.Library.CInt
open AxiomeToolchain.Library.Sink

/-- A NUL-terminated string object, without its terminator. -/
structure CString where
  bytes : List UInt8
  nul_free : (0 : UInt8) ∉ bytes
  fits : bytes.length < wordModulus

def CString.empty : CString := ⟨[], by decide, by decide⟩

/-- The bytes of the string with the NUL that ends it. -/
def CString.terminated (s : CString) : List UInt8 := s.bytes ++ [0]

theorem CString.terminated_append (s : CString) (after : List UInt8) :
    s.terminated ++ after = s.bytes ++ 0 :: after := by
  rw [CString.terminated, List.append_assoc, List.singleton_append]

/-- The answer to a write of `len` bytes is a failure or a count, positive if
`len` is; a read gives a failure or at most `len` bytes, none at end of file.
The first argument is the number of writes (reads) before this one. -/
structure Kernel where
  write : Nat → Int → Nat → Option Nat
  read : Nat → Int → Nat → Option (List UInt8)
  write_count : ∀ {k fd len n}, write k fd len = some n → n ≤ len ∧ (0 < len → 0 < n)
  read_count : ∀ {k fd len bytes}, read k fd len = some bytes → bytes.length ≤ len

structure WriteCall where
  fd : Int
  bytes : List UInt8
  result : Option Nat

def WriteCall.accepted (w : WriteCall) : List UInt8 := w.bytes.take (w.result.getD 0)

structure ReadCall where
  fd : Int
  len : Nat
  result : Option (List UInt8)

/-- A `FILE *`. -/
inductive Stream where
  | null | stdin | stdout | stderr
  | opened (n : Nat)
  deriving DecidableEq, Repr

/-- The fields of `FILE` that the calls below read or set. -/
structure File where
  fd : Int
  eof : Int
  err : Int

def outbufSize : Nat := 256

/-- The static variables of stdio.c and the system calls made so far. -/
structure State where
  outbuf : Vector UInt8 outbufSize
  outlen : Nat
  files : Stream → File
  writes : List WriteCall
  reads : List ReadCall

variable (kernel : Kernel)

def write (st : State) (fd : Int) (bytes : List UInt8) : State × Option Nat :=
  let result := kernel.write st.writes.length fd bytes.length
  ({ st with writes := st.writes ++ [⟨fd, bytes, result⟩] }, result)

def read (st : State) (fd : Int) (len : Nat) : State × Option (List UInt8) :=
  let result := kernel.read st.reads.length fd len
  ({ st with reads := st.reads ++ [⟨fd, len, result⟩] }, result)

def setErr (st : State) (stream : Stream) : State :=
  { st with files := Function.update st.files stream { st.files stream with err := 1 } }

def setEof (st : State) (stream : Stream) : State :=
  { st with files := Function.update st.files stream { st.files stream with eof := 1 } }

/-! ## The buffered path -/

def flush (st : State) : State :=
  if st.outlen > 0 then
    { (write kernel st 1 (st.outbuf.toList.take st.outlen)).1 with outlen := 0 }
  else st

def emit (st : State) (c : UInt8) : Option State :=
  if h : st.outlen < outbufSize then
    let st := { st with outbuf := st.outbuf.set st.outlen c h, outlen := st.outlen + 1 }
    some (if st.outlen ≥ outbufSize - 1 then flush kernel st else st)
  else none

def emitStr (st : State) (s : List UInt8) : Option State := putAll (emit kernel) st s

/-- `tmp[i++] = digits[v % base]; v /= base` while v is not 0, in an array with
`room` bytes left. The result is the array, lowest digit first. -/
def digitLoop (digit : Nat → UInt8) (base : Nat) : Nat → Nat → Option (List UInt8)
  | _, 0 => some []
  | 0, _ + 1 => none
  | room + 1, v + 1 =>
    (digitLoop digit base room ((v + 1) / base)).map (digit ((v + 1) % base) :: ·)

def ascii (s : String) : List UInt8 := s.toList.map (fun c => UInt8.ofNat c.toNat)

def digitOf (upper : Bool) (i : Nat) : UInt8 :=
  (if upper then ascii "0123456789ABCDEF" else ascii "0123456789abcdef").getD i 0

def zeroChar : UInt8 := 48
def spaceChar : UInt8 := 32
def minusChar : UInt8 := 45
def percentChar : UInt8 := 37

/-- The `int` that counts a `while (pad--)` loop down to 0. -/
def countdown (pad : Int) : Nat := (pad % 4294967296).toNat

/-- `(unsigned long)v`. -/
def asUnsigned (v : Int) : Nat := (v % 18446744073709551616).toNat

def emitUintWidth (st : State) (v base : Nat) (upper : Bool) (width : Int) (zeroPad : Bool) :
    Option State :=
  (if v = 0 then some [zeroChar] else digitLoop (digitOf upper) base 24 v).bind (fun tmp =>
    let padCount := wrapInt (width - tmp.length)
    (if padCount > 0 then
      putAll (emit kernel) st
        (List.replicate (countdown padCount) (if zeroPad then zeroChar else spaceChar))
      else some st).bind (fun st =>
    putAll (emit kernel) st tmp.reverse))

def emitUint (st : State) (v base : Nat) (upper : Bool) : Option State :=
  emitUintWidth kernel st v base upper 0 false

def emitIntWidth (st : State) (v width : Int) (zeroPad : Bool) : Option State :=
  if v < 0 then
    (emit kernel st minusChar).bind (fun st =>
      let width := if width > 0 then width - 1 else width
      let v := u64Add (asUnsigned (wrapLong (-(wrapLong (v + 1))))) 1
      emitUintWidth kernel st v 10 false width zeroPad)
  else emitUintWidth kernel st (asUnsigned v) 10 false width zeroPad

/-- `if (width > len) { pad = width - len; while (pad--) … }`: the characters of the loop. -/
def padding (width len : Int) (c : UInt8) : List UInt8 :=
  if width > len then List.replicate (countdown (wrapInt (width - len))) c else []

def emitStrWidth (st : State) (s : List UInt8) (width : Int) (leftAlign : Bool) : Option State :=
  let len := wrapInt s.length
  (if leftAlign then some st else putAll (emit kernel) st (padding width len spaceChar)).bind
    (fun st => (emitStr kernel st s).bind (fun st =>
      if leftAlign then putAll (emit kernel) st (padding width len spaceChar) else some st))

/-! ## The direct path -/

def eofMarker : Int := -1

def puts (st : State) (s : CString) : Option (State × Int) :=
  (emitStr kernel st s.bytes).bind (fun st =>
    (emit kernel st 10).map (fun st => (flush kernel st, 0)))

def putchar (st : State) (c : Int) : State × Int :=
  ((write kernel st 1 [UInt8.ofInt c]).1, c)

/-- `ptr` is NULL or an object of as many bytes as the list has. -/
def fwrite (st : State) (ptr : Option (List UInt8)) (size nmemb : Nat) (stream : Stream) :
    Option (State × Nat) :=
  match ptr with
  | none => some (st, 0)
  | some object =>
    if stream = .null ∨ size = 0 ∨ nmemb = 0 then some (st, 0)
    else
      let total := u64Mul size nmemb
      if total ≤ object.length then
        match write kernel st (st.files stream).fd (object.take total) with
        | (st, none) => some (setErr st stream, 0)
        | (st, some n) => some (st, n / size)
      else none

def fputs (st : State) (s : CString) (stream : Stream) : Option (State × Int) :=
  (fwrite kernel st (some s.bytes) 1 s.bytes.length stream).map
    (fun (st, n) => (st, wrapInt n))

def fputc (st : State) (c : Int) (stream : Stream) : Option (State × Int) :=
  (fwrite kernel st (some [UInt8.ofInt c]) 1 1 stream).map
    (fun (st, n) => (st, if n = 1 then c else eofMarker))

/-- The count, and the bytes the call stored at `ptr` (NULL when `hasPtr` is false). -/
def fread (st : State) (hasPtr : Bool) (size nmemb : Nat) (stream : Stream) :
    State × Nat × List UInt8 :=
  if stream = .null ∨ hasPtr = false ∨ size = 0 ∨ nmemb = 0 then (st, 0, [])
  else
    let total := u64Mul size nmemb
    match read kernel st (st.files stream).fd total with
    | (st, none) => (setErr st stream, 0, [])
    | (st, some bytes) =>
      (if bytes.length = 0 then setEof st stream else st, bytes.length / size, bytes)

def getchar (st : State) : State × Int :=
  match read kernel st 0 1 with
  | (st, some (c :: _)) => (st, c.toNat)
  | (st, _) => (st, -1)

def fgetc (st : State) (stream : Stream) : State × Int :=
  match fread kernel st true 1 1 stream with
  | (st, 1, c :: _) => (st, c.toNat)
  | (st, _) => (st, eofMarker)

/-- `for (i = 0; i < size - 1; i++)` with `left` rounds to go, after the bytes
`got` were stored. NULL is `none`, otherwise the string without its NUL. -/
def fgetsLoop (stream : Stream) : Nat → State → List UInt8 → State × Option (List UInt8)
  | 0, st, got => (st, some got)
  | left + 1, st, got =>
    let (st, c) := fgetc kernel st stream
    if c = eofMarker then (st, if got.length = 0 then none else some got)
    else if c = 10 then (st, some (got ++ [UInt8.ofInt c]))
    else fgetsLoop stream left st (got ++ [UInt8.ofInt c])

def fgets (st : State) (size : Int) (stream : Stream) : State × Option (List UInt8) :=
  if size ≤ 0 then (st, none) else fgetsLoop kernel stream (size - 1).toNat st []

def feof (st : State) (stream : Stream) : Int :=
  if stream = .null then 0 else (st.files stream).eof

def ferror (st : State) (stream : Stream) : Int :=
  if stream = .null then 0 else (st.files stream).err

def clearerr (st : State) (stream : Stream) : State :=
  if stream = .null then st
  else { st with files := Function.update st.files stream { st.files stream with eof := 0, err := 0 } }

end AxiomeToolchain.Source.Stdio
