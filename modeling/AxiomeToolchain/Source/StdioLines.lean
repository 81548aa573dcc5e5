import AxiomeToolchain.Library.ByteMemory
import AxiomeToolchain.Library.Lines
import AxiomeToolchain.Source.StdioInput

/-!
# fgets and the array it fills

sdk/src/stdio.c:533-557 with the stores into `s`, and a caller that goes on until
NULL. `fgetsInto_eq` reduces it to the string that fgets returns; `fgets_line`
says what this is for a stream that delivers a file byte by byte.
-/

set_option autoImplicit false

namespace AxiomeToolchain.Source.Stdio
open AxiomeToolchain.Library.CInt
open AxiomeToolchain.Library.ByteMemory
open AxiomeToolchain.Library.Lines

/-- `for (i = 0; i < size - 1; i++)` with `left` rounds to go: the index behind
the loop, none for the `return NULL` in it. -/
def fgetsStores (kernel : Kernel) (stream : Stream) (s : Nat) :
    Nat → State → Memory → Nat → State × Memory × Option Nat
  | 0, st, m, i => (st, m, some i)
  | left + 1, st, m, i =>
    let (st, c) := fgetc kernel st stream
    if c = eofMarker then (st, m, if i = 0 then none else some i)
    else
      let m := writeByte m (s + i) (UInt8.ofInt c)
      if c = 10 then (st, m, some (i + 1)) else fgetsStores kernel stream s left st m (i + 1)

/-- The pointer returned is `s`, or 0 for NULL. -/
def fgetsInto (kernel : Kernel) (st : State) (m : Memory) (s : Nat) (size : Int) (stream : Stream) :
    State × Memory × Nat :=
  if size ≤ 0 then (st, m, 0)
  else
    match fgetsStores kernel stream s (size - 1).toNat st m 0 with
    | (st, m, none) => (st, m, 0)
    | (st, m, some i) => (st, writeByte m (s + i) 0, s)

/-- A call of fgets: the streams and the memory before and after it. -/
structure LineCall where
  before : State
  memory : Memory
  after : State
  stored : Memory

/-- `while (fgets(s, size, stream))`: the calls that returned `s`, and the one that
returned NULL; none when `fuel` calls were not enough. -/
def fgetsAll (kernel : Kernel) (s : Nat) (size : Int) (stream : Stream) :
    Nat → State → Memory → Option (List LineCall × LineCall)
  | 0, _, _ => none
  | fuel + 1, st, m =>
    match fgetsInto kernel st m s size stream with
    | (st', m', p) =>
      if p = 0 then some ([], ⟨st, m, st', m'⟩)
      else (fgetsAll kernel s size stream fuel st' m').map
        (fun (calls, last) => (⟨st, m, st', m'⟩ :: calls, last))

/-- The string at `s` after the call. -/
def LineCall.piece (call : LineCall) (s : Nat) (size : Int) : List UInt8 :=
  (bytesAt call.stored s size.toNat).takeWhile (fun c => c ≠ 0)

/-- The bytes the call took from the kernel. -/
def LineCall.consumed (call : LineCall) : List UInt8 :=
  (call.after.reads.drop call.before.reads.length).flatMap (fun r => r.result.getD [])

variable {kernel : Kernel} {stream : Stream} {st : State} {m : Memory} {s : Nat} {size : Int}

/-! ## The array holds what fgets returns -/

/-- Where the loop lands: the string is in the array, nothing for NULL. -/
def landed (m : Memory) (s : Nat) (out : State × Option (List UInt8)) : State × Memory × Option Nat :=
  (out.1, writeBytes m s (out.2.getD []), out.2.map List.length)

theorem fgetsStores_eq (kernel : Kernel) (stream : Stream) (s left : Nat) (st : State) (m : Memory)
    (got : List UInt8) :
    fgetsStores kernel stream s left st (writeBytes m s got) got.length =
      landed m s (fgetsLoop kernel stream left st got) := by
  induction left generalizing st got with
  | zero => rfl
  | succ left ih =>
    rw [fgetsStores, fgetsLoop]
    generalize fgetc kernel st stream = character
    obtain ⟨next, c⟩ := character
    have store : writeByte (writeBytes m s got) (s + got.length) (UInt8.ofInt c) =
        writeBytes m s (got ++ [UInt8.ofInt c]) := by
      rw [writeBytes_append]
      rfl
    have length : got.length + 1 = (got ++ [UInt8.ofInt c]).length := by simp
    simp only [store, length, ih]
    split
    · split
      · next nothing =>
        rw [List.eq_nil_of_length_eq_zero nothing]
        rfl
      · rfl
    · split <;> rfl

/-- fgets stores the string it returns and a NUL, and nothing with NULL. -/
theorem fgetsInto_eq (kernel : Kernel) (st : State) (m : Memory) (s : Nat) (size : Int)
    (stream : Stream) :
    fgetsInto kernel st m s size stream =
      ((fgets kernel st size stream).1,
        ((fgets kernel st size stream).2.map (fun line => writeBytes m s (line ++ [0]))).getD m,
        if (fgets kernel st size stream).2.isSome then s else 0) := by
  unfold fgetsInto fgets
  split
  · rfl
  · have stores := fgetsStores_eq kernel stream s (size - 1).toNat st m []
    rw [writeBytes, List.length_nil] at stores
    rw [stores]
    generalize fgetsLoop kernel stream (size - 1).toNat st [] = out
    obtain ⟨next, line⟩ := out
    cases line with
    | none => rfl
    | some line =>
      simp only [landed, Option.map_some, Option.getD_some, Option.isSome_some, if_true,
        writeBytes_append]
      rfl

/-! ## A stream that delivers a file -/

/-- From here on each one-byte read returns the next byte of `rest`, or none at its end. -/
structure Delivers (kernel : Kernel) (stream : Stream) (st : State) (rest : List UInt8) : Prop where
  nonnull : stream ≠ .null
  reads : ∀ i, kernel.read (st.reads.length + i) (st.files stream).fd 1 = some ((rest.drop i).take 1)

/-- Between the states the kernel handed over these bytes. -/
def Consumed (st st' : State) (bytes : List UInt8) : Prop :=
  ∃ calls, st'.reads = st.reads ++ calls ∧ calls.flatMap (fun r => r.result.getD []) = bytes

variable {rest got : List UInt8} {c : UInt8}

theorem Consumed.trans {st' st'' : State} {xs ys : List UInt8} (first : Consumed st st' xs)
    (second : Consumed st' st'' ys) : Consumed st st'' (xs ++ ys) := by
  obtain ⟨calls, reads, bytes⟩ := first
  obtain ⟨calls', reads', bytes'⟩ := second
  refine ⟨calls ++ calls', ?_, ?_⟩
  · rw [reads', reads, List.append_assoc]
  · rw [List.flatMap_append, bytes, bytes']

/-- The state after a one-byte read of a stream that delivers. -/
theorem fread_delivers (delivers : Delivers kernel stream st rest) :
    ∃ st', fread kernel st true 1 1 stream = (st', (rest.take 1).length, rest.take 1) ∧
      Delivers kernel stream st' rest.tail ∧ Consumed st st' (rest.take 1) := by
  have answer := delivers.reads 0
  rw [Nat.add_zero, List.drop_zero] at answer
  have one : u64Mul 1 1 = 1 := by decide
  let call : ReadCall := ⟨(st.files stream).fd, 1, some (rest.take 1)⟩
  have later (i : Nat) : kernel.read ((st.reads ++ [call]).length + i) (st.files stream).fd 1 =
      some ((rest.tail.drop i).take 1) := by
    have shifted := delivers.reads (1 + i)
    rw [← Nat.add_assoc, ← List.drop_drop, List.drop_one] at shifted
    rw [List.length_append]
    exact shifted
  have handed : [call].flatMap (fun r => r.result.getD []) = rest.take 1 := List.append_nil _
  rw [fread_eq delivers.nonnull Nat.one_pos Nat.one_pos]
  simp only [read, answer, one, Nat.div_one]
  refine ⟨_, rfl, ⟨delivers.nonnull, fun i => ?_⟩, ⟨[call], ?_, handed⟩⟩
  · split
    · simpa [setEof] using later i
    · exact later i
  · split <;> rfl

theorem ofInt_toNat (c : UInt8) : UInt8.ofInt c.toNat = c := by
  have small := c.toNat_lt
  rw [← UInt8.toNat_inj, UInt8.ofInt, UInt8.toNat_ofNat']
  omega

theorem fgetc_next (delivers : Delivers kernel stream st (c :: rest)) :
    ∃ st', fgetc kernel st stream = (st', (c.toNat : Int)) ∧ Delivers kernel stream st' rest ∧
      Consumed st st' [c] := by
  obtain ⟨st', run, after, consumed⟩ := fread_delivers delivers
  refine ⟨st', ?_, after, consumed⟩
  rw [fgetc, run]
  rfl

theorem fgetc_ended (delivers : Delivers kernel stream st []) :
    ∃ st', fgetc kernel st stream = (st', eofMarker) ∧ Delivers kernel stream st' [] ∧
      Consumed st st' [] := by
  obtain ⟨st', run, after, consumed⟩ := fread_delivers delivers
  refine ⟨st', ?_, after, consumed⟩
  rw [fgetc, run]
  rfl

/-! ## One call -/

/-- The step lemma: behind what it already got the loop takes the next line. -/
theorem fgetsLoop_line (left : Nat) (got : List UInt8) (some_bytes : got ≠ [] ∨ rest ≠ [])
    (delivers : Delivers kernel stream st rest) :
    ∃ st', fgetsLoop kernel stream left st got = (st', some (got ++ firstLine 10 left rest)) ∧
      Delivers kernel stream st' (rest.drop (firstLine 10 left rest).length) ∧
      Consumed st st' (firstLine 10 left rest) := by
  induction left generalizing st got rest with
  | zero => exact ⟨st, by rw [firstLine, List.append_nil]; rfl, delivers, [], by simp, rfl⟩
  | succ left ih =>
    cases rest with
    | nil =>
      obtain ⟨st', run, after, consumed⟩ := fgetc_ended delivers
      have nonempty : ¬ got.length = 0 := by simpa using some_bytes
      refine ⟨st', ?_, after, consumed⟩
      rw [fgetsLoop, run, firstLine, List.append_nil]
      simp only [if_true, if_neg nonempty]
    | cons c rest =>
      obtain ⟨st', run, after, consumed⟩ := fgetc_next delivers
      have not_eof : ¬ (c.toNat : Int) = eofMarker := by
        unfold eofMarker
        omega
      have newline : (c.toNat : Int) = 10 ↔ c = 10 := by
        rw [← UInt8.toNat_inj]
        exact Int.ofNat_inj
      rw [fgetsLoop, run, firstLine]
      simp only [not_eof, newline, ofInt_toNat, if_false]
      by_cases ends : c = 10
      · rw [if_pos ends, if_pos ends]
        exact ⟨st', rfl, after, consumed⟩
      · rw [if_neg ends, if_neg ends]
        obtain ⟨st'', line, further, more⟩ := ih (got ++ [c]) (.inl (by simp)) after
        refine ⟨st'', ?_, further, consumed.trans more⟩
        rw [line, List.append_assoc]
        rfl

theorem fgets_line (large : 2 ≤ size) (more : rest ≠ []) (delivers : Delivers kernel stream st rest) :
    ∃ st', fgets kernel st size stream = (st', some (firstLine 10 (size - 1).toNat rest)) ∧
      Delivers kernel stream st' (rest.drop (firstLine 10 (size - 1).toNat rest).length) ∧
      Consumed st st' (firstLine 10 (size - 1).toNat rest) := by
  have positive : ¬ size ≤ 0 := by omega
  rw [fgets, if_neg positive]
  exact fgetsLoop_line (size - 1).toNat [] (.inr more) delivers

theorem fgets_null (large : 2 ≤ size) (delivers : Delivers kernel stream st []) :
    ∃ st', fgets kernel st size stream = (st', none) ∧ Delivers kernel stream st' [] ∧
      Consumed st st' [] := by
  obtain ⟨st', run, after, consumed⟩ := fgetc_ended delivers
  have positive : ¬ size ≤ 0 := by omega
  obtain ⟨left, rounds⟩ := Nat.exists_eq_add_one_of_ne_zero (show (size - 1).toNat ≠ 0 by omega)
  refine ⟨st', ?_, after, consumed⟩
  rw [fgets, if_neg positive, rounds, fgetsLoop, run]
  simp only [List.length_nil, if_true]

end AxiomeToolchain.Source.Stdio
