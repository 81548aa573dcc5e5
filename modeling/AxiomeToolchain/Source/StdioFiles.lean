import AxiomeToolchain.Source.Heap
import AxiomeToolchain.Source.Syscall

/-!
# FILE objects: fopen, fclose and the calls that mark them

sdk/src/stdio.c:559-699 with the `FILE` of sdk/include/stdio.h as 48 bytes of
the memory, at an address that malloc gave. What the kernel leaves in rax comes
with each call, and each function lists the system calls it made with these
answers. The buffers behind `ptr` are bytes of the same memory.
-/

set_option autoImplicit false

namespace AxiomeToolchain.Source.StdioFiles
open AxiomeToolchain.Library.ByteMemory
open AxiomeToolchain.Library.CInt
open AxiomeToolchain.Source.Heap
open AxiomeToolchain.Source.Syscall

/-- The system calls a function made, with the answers. -/
abbrev Trace := List (SystemCall × Int)

/-! ## The object -/

def fileSize : Nat := 48

/-- The bytes of an `int`, as a number below 2^32. -/
def image (v : Int) : Nat := (v % 4294967296).toNat

def readInt (m : Memory) (p : Nat) : Int := wrapInt (readLE m p 4)

def readFd (m : Memory) (f : Nat) : Int := readInt m f
def readFlags (m : Memory) (f : Nat) : Int := readInt m (f + 4)
def readEof (m : Memory) (f : Nat) : Int := readInt m (f + 8)
def readErr (m : Memory) (f : Nat) : Int := readInt m (f + 12)
def readBuf (m : Memory) (f : Nat) : Nat := readLE m (f + 16) 8

def writeEof (m : Memory) (f : Nat) (v : Int) : Memory := writeLE m (f + 8) (image v) 4
def writeErr (m : Memory) (f : Nat) (v : Int) : Memory := writeLE m (f + 12) (image v) 4

/-- The eight assignments at the end of fopen, in their order. -/
def initFile (m : Memory) (f : Nat) (fd flags : Int) : Memory :=
  let m := writeLE m f (image fd) 4
  let m := writeLE m (f + 4) (image flags) 4
  let m := writeEof m f 0
  let m := writeErr m f 0
  let m := writeLE m (f + 16) null 8
  let m := writeLE m (f + 24) 0 8
  let m := writeLE m (f + 32) 0 8
  writeLE m (f + 40) 0 8

/-! ## The mode -/

def ioRead : Int := 0x01
def ioWrite : Int := 0x02

def oRdonly : Int := 0x0000
def oWronly : Int := 0x0001
def oRdwr : Int := 0x0002
def oCreat : Int := 0x0100
def oTrunc : Int := 0x0200
def oAppend : Int := 0x0400

/-- `flags` and `file_flags`; the flags of open have no bit in common, so that
`|` is a sum. -/
structure Mode where
  flags : Int
  fileFlags : Int
  deriving DecidableEq, Repr

/-- `switch (mode[0])` -/
def plainMode (c : UInt8) : Option Mode :=
  if c = 114 then some ⟨ioRead, oRdonly⟩
  else if c = 119 then some ⟨ioWrite, oWronly + oCreat + oTrunc⟩
  else if c = 97 then some ⟨ioWrite, oWronly + oCreat + oAppend⟩
  else none

/-- The body of `if (mode[1] == '+')`. -/
def updateMode (c : UInt8) : Mode :=
  ⟨ioRead + ioWrite,
    if c = 114 then oRdwr
    else if c = 119 then oRdwr + oCreat + oTrunc
    else oRdwr + oCreat + oAppend⟩

/-- The outer `none` is a read past the end of the mode's object, the inner one
the return of NULL. -/
def parseMode : Option (List UInt8) → Option (Option Mode)
  | none => some none
  | some [] => none
  | some (c :: rest) =>
    if c = 0 then some none
    else
      (plainMode c).elim (some none) (fun plain =>
        rest.head?.map (fun d => some (if d = 43 then updateMode c else plain)))

/-! ## The functions -/

def eofMarker : Int := -1

/-- The answers are those of open and, where malloc fails, of close. -/
def fopen (site : Site) (st : State) (path : Long) (mode : Option (List UInt8))
    (opened closed : Int) : Option (State × Nat × Trace) :=
  (parseMode mode).bind (fun parsed =>
    match parsed with
    | none => some (st, null, [])
    | some mode =>
      let call := SystemCall.openPath path (BitVec.ofInt 32 mode.fileFlags)
      let (fd, errno) := call.perform st.errno opened
      let st := { st with errno := errno }
      if fd < 0 then some (st, null, [(call, opened)])
      else
        (malloc site st fileSize).map (fun (st, f) =>
          if f = null then
            let release := SystemCall.close (BitVec.ofInt 32 fd)
            let (_, errno) := release.perform st.errno closed
            ({ st with errno := errno }, null, [(call, opened), (release, closed)])
          else ({ st with memory := initFile st.memory f fd mode.flags }, f, [(call, opened)])))

/-- `stdin`, `stdout` and `stderr`: static objects, which are not part of the heap. -/
structure Standard (site : Site) where
  stdin : Nat
  stdout : Nat
  stderr : Nat
  outside : ∀ f ∈ [stdin, stdout, stderr], f < site.base ∨ site.base + heapSize ≤ f

/-- Nothing is buffered, with or without a stream. -/
def fflush (st : State) (_stream : Nat) : State × Int := (st, 0)

def fclose {site : Site} (std : Standard site) (st : State) (stream : Nat) (closed : Int) :
    Option (State × Int × Trace) :=
  if stream = null then some (st, eofMarker, [])
  else if stream = std.stdin ∨ stream = std.stdout ∨ stream = std.stderr then some (st, 0, [])
  else
    let (st, _) := fflush st stream
    let call := SystemCall.close (BitVec.ofInt 32 (readFd st.memory stream))
    let (r, errno) := call.perform st.errno closed
    let st := { st with errno := errno }
    (if readBuf st.memory stream ≠ null then free st (readBuf st.memory stream) else some st).bind
      (fun st => (free st stream).map (fun st => (st, if r < 0 then eofMarker else 0, [(call, closed)])))

/-- The kernel stores `data` at `ptr`, as many bytes as it answers. -/
def fread (st : State) (ptr size nmemb stream : Nat) (raw : Int) (data : List UInt8) :
    State × Nat × Trace :=
  if stream = null ∨ ptr = null ∨ size = 0 ∨ nmemb = 0 then (st, 0, [])
  else
    let total := u64Mul size nmemb
    let call := SystemCall.read (BitVec.ofInt 32 (readFd st.memory stream)) (BitVec.ofNat 64 ptr)
      (BitVec.ofNat 64 total)
    let (n, errno) := call.perform st.errno raw
    let st := { st with errno := errno, memory := writeBytes st.memory ptr data }
    if n < 0 then ({ st with memory := writeErr st.memory stream 1 }, 0, [(call, raw)])
    else
      (if n = 0 then { st with memory := writeEof st.memory stream 1 } else st, n.toNat / size,
        [(call, raw)])

def fwrite (st : State) (ptr size nmemb stream : Nat) (raw : Int) : State × Nat × Trace :=
  if stream = null ∨ ptr = null ∨ size = 0 ∨ nmemb = 0 then (st, 0, [])
  else
    let total := u64Mul size nmemb
    let call := SystemCall.write (BitVec.ofInt 32 (readFd st.memory stream)) (BitVec.ofNat 64 ptr)
      (BitVec.ofNat 64 total)
    let (n, errno) := call.perform st.errno raw
    let st := { st with errno := errno }
    if n < 0 then ({ st with memory := writeErr st.memory stream 1 }, 0, [(call, raw)])
    else (st, n.toNat / size, [(call, raw)])

def feof (m : Memory) (stream : Nat) : Int := if stream ≠ null then readEof m stream else 0

def ferror (m : Memory) (stream : Nat) : Int := if stream ≠ null then readErr m stream else 0

def clearerr (m : Memory) (stream : Nat) : Memory :=
  if stream ≠ null then writeErr (writeEof m stream 0) stream 0 else m

/-! ## What the functions return -/

variable {site : Site} {std : Standard site} {st : State} {path : Long}
  {mode : Option (List UInt8)} {parsed : Mode} {opened closed fd errno raw : Int} {stream : Nat}

theorem toInt_ofInt (low : 0 ≤ fd) (high : fd ≤ intMax) : (BitVec.ofInt 32 fd).toInt = fd := by
  unfold intMax at high
  rw [BitVec.toInt_ofInt]
  exact Int.bmod_eq_of_le (by omega) (by omega)

theorem open_failed {flags : BitVec 32} (failed : Failed raw) :
    (SystemCall.openPath path flags).perform errno raw = (-1, -raw) :=
  perform_failed _ failed

theorem open_succeeded {flags : BitVec 32} (low : 0 ≤ raw) (high : raw ≤ intMax) :
    (SystemCall.openPath path flags).perform errno raw = (raw, errno) := by
  unfold intMax at high
  have success : ¬ Failed raw := fun failed => by have := failed.2; omega
  have fits : Fits .int raw := ⟨by omega, by omega⟩
  exact perform_succeeded (.openPath path flags) success fits

theorem parseMode_total (ended : ∀ m, mode = some m → (0 : UInt8) ∈ m) :
    ∃ parsed, parseMode mode = some parsed := by
  cases mode with
  | none => exact ⟨none, rfl⟩
  | some m =>
    have zero := ended m rfl
    cases m with
    | nil => cases zero
    | cons c rest =>
      rw [parseMode]
      by_cases empty : c = 0
      · exact ⟨none, if_pos empty⟩
      · rw [if_neg empty]
        cases rest with
        | nil => exact absurd (List.mem_singleton.mp zero).symm empty
        | cons d rest =>
          cases plainMode c with
          | none => exact ⟨none, rfl⟩
          | some plain => exact ⟨_, rfl⟩

theorem fopen_rejected (rejected : parseMode mode = some none) :
    fopen site st path mode opened closed = some (st, null, []) := by
  rw [fopen, rejected, Option.bind_some]

/-- The open that a mode asks for. -/
def openOf (path : Long) (mode : Mode) : SystemCall :=
  .openPath path (BitVec.ofInt 32 mode.fileFlags)

theorem fopen_denied (found : parseMode mode = some (some parsed)) (failed : Failed opened) :
    fopen site st path mode opened closed =
      some ({ st with errno := -opened }, null, [(openOf path parsed, opened)]) := by
  rw [fopen, found, Option.bind_some]
  simp only [open_failed failed]
  rfl

/-- malloc has no room for the object: the descriptor is closed again. -/
theorem fopen_full (found : parseMode mode = some (some parsed)) (low : 0 ≤ opened)
    (high : opened ≤ intMax) {st' : State} (full : malloc site st fileSize = some (st', null)) :
    fopen site st path mode opened closed =
      some ({ st' with
          errno := ((SystemCall.close (BitVec.ofInt 32 opened)).perform st'.errno closed).2 },
        null, [(openOf path parsed, opened), (.close (BitVec.ofInt 32 opened), closed)]) := by
  rw [fopen, found, Option.bind_some]
  simp only [open_succeeded low high, if_neg (Int.not_lt.mpr low)]
  rw [show malloc site { st with errno := st.errno } fileSize = some (st', null) from full,
    Option.map_some]
  rfl

theorem fopen_opened (found : parseMode mode = some (some parsed)) (low : 0 ≤ opened)
    (high : opened ≤ intMax) {st' : State} {f : Nat} (nonnull : f ≠ null)
    (granted : malloc site st fileSize = some (st', f)) :
    fopen site st path mode opened closed =
      some ({ st' with memory := initFile st'.memory f opened parsed.flags }, f,
        [(openOf path parsed, opened)]) := by
  rw [fopen, found, Option.bind_some]
  simp only [open_succeeded low high, if_neg (Int.not_lt.mpr low)]
  rw [show malloc site { st with errno := st.errno } fileSize = some (st', f) from granted,
    Option.map_some, if_neg nonnull]
  rfl

/-- The close of a stream. -/
def closeOf (m : Memory) (stream : Nat) : SystemCall := .close (BitVec.ofInt 32 (readFd m stream))

theorem fclose_opened (nonnull : stream ≠ null)
    (heap : ¬ (stream = std.stdin ∨ stream = std.stdout ∨ stream = std.stderr))
    (unbuffered : readBuf st.memory stream = null) :
    fclose std st stream closed =
      (free { st with errno := ((closeOf st.memory stream).perform st.errno closed).2 } stream).map
        (fun st' => (st', if ((closeOf st.memory stream).perform st.errno closed).1 < 0 then
          eofMarker else 0, [(closeOf st.memory stream, closed)])) := by
  rw [fclose, if_neg nonnull, if_neg heap]
  simp only [fflush, unbuffered, ne_eq, not_true_eq_false, if_false, Option.bind_some]
  rfl

/-- The read and the write of a stream, with the total that fread and fwrite compute. -/
def readOf (m : Memory) (ptr size nmemb stream : Nat) : SystemCall :=
  .read (BitVec.ofInt 32 (readFd m stream)) (BitVec.ofNat 64 ptr) (BitVec.ofNat 64 (u64Mul size nmemb))

def writeOf (m : Memory) (ptr size nmemb stream : Nat) : SystemCall :=
  .write (BitVec.ofInt 32 (readFd m stream)) (BitVec.ofNat 64 ptr) (BitVec.ofNat 64 (u64Mul size nmemb))

variable {ptr size nmemb : Nat} {data : List UInt8} {fd' : BitVec 32} {buf len : Long}

theorem read_failed (failed : Failed raw) :
    (SystemCall.read fd' buf len).perform errno raw = (-1, -raw) :=
  perform_failed _ failed

theorem write_failed (failed : Failed raw) :
    (SystemCall.write fd' buf len).perform errno raw = (-1, -raw) :=
  perform_failed _ failed

theorem read_succeeded (low : 0 ≤ raw) :
    (SystemCall.read fd' buf len).perform errno raw = (raw, errno) := by
  have success : ¬ Failed raw := fun failed => by have := failed.2; omega
  rw [perform_eq, outcome_called rfl, syscall_succeeded success]
  rfl

theorem write_succeeded (low : 0 ≤ raw) :
    (SystemCall.write fd' buf len).perform errno raw = (raw, errno) := by
  have success : ¬ Failed raw := fun failed => by have := failed.2; omega
  rw [perform_eq, outcome_called rfl, syscall_succeeded success]
  rfl

theorem fread_failed (asked : ¬ (stream = null ∨ ptr = null ∨ size = 0 ∨ nmemb = 0))
    (failed : Failed raw) :
    fread st ptr size nmemb stream raw [] =
      ({ st with errno := -raw, memory := writeErr st.memory stream 1 }, 0,
        [(readOf st.memory ptr size nmemb stream, raw)]) := by
  rw [fread, if_neg asked]
  simp only [read_failed failed, if_pos (show (-1 : Int) < 0 by decide)]
  rfl

theorem fread_done (asked : ¬ (stream = null ∨ ptr = null ∨ size = 0 ∨ nmemb = 0)) (low : 0 ≤ raw) :
    fread st ptr size nmemb stream raw data =
      ({ st with
          memory := if raw = 0 then writeEof (writeBytes st.memory ptr data) stream 1
            else writeBytes st.memory ptr data },
        raw.toNat / size, [(readOf st.memory ptr size nmemb stream, raw)]) := by
  rw [fread, if_neg asked]
  simp only [read_succeeded low, if_neg (Int.not_lt.mpr low)]
  split <;> rfl

theorem fwrite_failed (asked : ¬ (stream = null ∨ ptr = null ∨ size = 0 ∨ nmemb = 0))
    (failed : Failed raw) :
    fwrite st ptr size nmemb stream raw =
      ({ st with errno := -raw, memory := writeErr st.memory stream 1 }, 0,
        [(writeOf st.memory ptr size nmemb stream, raw)]) := by
  rw [fwrite, if_neg asked]
  simp only [write_failed failed, if_pos (show (-1 : Int) < 0 by decide)]
  rfl

theorem fwrite_done (asked : ¬ (stream = null ∨ ptr = null ∨ size = 0 ∨ nmemb = 0)) (low : 0 ≤ raw) :
    fwrite st ptr size nmemb stream raw =
      (st, raw.toNat / size, [(writeOf st.memory ptr size nmemb stream, raw)]) := by
  rw [fwrite, if_neg asked]
  simp only [write_succeeded low, if_neg (Int.not_lt.mpr low)]
  rfl

end AxiomeToolchain.Source.StdioFiles
