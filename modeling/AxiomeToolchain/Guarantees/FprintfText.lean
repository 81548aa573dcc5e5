import AxiomeToolchain.Source.FormatStores
import AxiomeToolchain.Source.FormatWidth
import AxiomeToolchain.Source.StdioCalls

/-!
# What fprintf sends

vfprintf formats into an array of 1024 bytes and passes fwrite the length of the
whole text, which says nothing about how much of it the array took.
-/

set_option autoImplicit false

namespace AxiomeToolchain.Guarantees.FprintfText
open AxiomeToolchain.Library.CInt
open AxiomeToolchain.Library.Sink
open AxiomeToolchain.Source.Stdio
open AxiomeToolchain.Source.Format

/-- fwrite is given the text, in bytes of `buf` that were stored, and makes the
write of it. -/
structure WritesText (kernel : Kernel) (st : State) (frame : Frame) (stream : Stream)
    (fmt : CString) (ap : VaList) (text : List UInt8) : Prop where
  buffered : ∃ stores ap' buf,
    vsnprintfInternal ⟨frame.address, bufSize, true⟩ fmt ap =
        some (stores, ap', (text.length : Int)) ∧
      putAll storeInto frame.held.toList stores = some buf ∧ text.length ≤ bufSize ∧
      buf.take text.length = text ∧ ∀ i < text.length, i ∈ stores.map (fun entry => entry.1)
  sent : ∃ st' ap', vfprintf kernel st frame stream fmt ap = some (st', ap', (text.length : Int)) ∧
    st'.writes = st.writes ++ if stream = .null then [] else
      kernel.calls (st.files stream).fd st.writes.length (flushed text)

variable {kernel : Kernel} {st : State} {frame : Frame} {stream : Stream} {fmt : CString}
  {ap ap' : VaList} {its : List Item} {text bytes buf : List UInt8}

/-! ## The array -/

theorem storeInto_indexed (before rest : List UInt8) (room : bytes.length ≤ rest.length) :
    putAll storeInto (before ++ rest) (indexed before.length bytes) =
      some (before ++ bytes ++ rest.drop bytes.length) := by
  induction bytes generalizing before rest with
  | nil => simp [indexed]
  | cons b later ih =>
    cases rest with
    | nil => cases room
    | cons held rest =>
      have inside : before.length < (before ++ held :: rest).length := by simp
      have once : storeInto (before ++ held :: rest) (before.length, b) =
          some ((before ++ [b]) ++ rest) := by
        simp [storeInto]
      have next : before.length + 1 = (before ++ [b]).length := by simp
      rw [indexed, putAll_cons, once, Option.bind_some, next, ih _ _ (by simpa using room)]
      simp

theorem indexed_indices (i : Nat) (bytes : List UInt8) :
    (indexed i bytes).map (fun entry => entry.1) = List.range' i bytes.length := by
  induction bytes generalizing i with
  | nil => rfl
  | cons b rest ih => rw [indexed, List.map_cons, ih, List.length_cons, List.range'_succ]

/-- What the array holds of the text, with the NUL. -/
def heldText (text : List UInt8) : List UInt8 := text.take (bufSize - 1) ++ [0]

theorem heldText_length (text : List UInt8) :
    (heldText text).length = min (bufSize - 1) text.length + 1 := by
  rw [heldText, List.length_append, List.length_take, List.length_singleton]

theorem buffered_eq (frame : Frame) (matching : items (pieces fmt) ap = some (its, ap'))
    (output : its.flatMap Item.bufferText = text) (short : text.length ≤ 2147483647) :
    vsnprintfInternal ⟨frame.address, bufSize, true⟩ fmt ap =
        some (indexed 0 (heldText text), ap', (text.length : Int)) ∧
      putAll storeInto frame.held.toList (indexed 0 (heldText text)) =
        some (heldText text ++ frame.held.toList.drop (heldText text).length) := by
  subst output
  constructor
  · exact vsnprintfInternal_items fmt ap frame.nonnull (by decide) (by decide) matching short
  · refine storeInto_indexed [] frame.held.toList ?_
    have size : frame.held.toList.length = bufSize := by simp
    rw [heldText_length, size]
    unfold bufSize
    omega

theorem buf_length (frame : Frame) (text : List UInt8) :
    (heldText text ++ frame.held.toList.drop (heldText text).length).length = bufSize := by
  have size : frame.held.toList.length = bufSize := by simp
  have limit : bufSize = 1024 := rfl
  rw [List.length_append, List.length_drop, size, heldText_length]
  omega

/-- The array holds the text when it has room for it, or for all but a last NUL. -/
theorem held_iff (text : List UInt8) :
    text <+: heldText text ↔
      text.length ≤ 1023 ∨ (text.length = 1024 ∧ text.getLast? = some 0) := by
  constructor
  · intro held
    have length := held.length_le
    rw [heldText_length] at length
    unfold bufSize at length
    by_cases fits : text.length ≤ 1023
    · exact .inl fits
    · have whole : text.length = 1024 := by omega
      have same := held.eq_of_length (by
        rw [heldText_length]
        unfold bufSize
        omega)
      refine .inr ⟨whole, ?_⟩
      rw [same, heldText]
      exact List.getLast?_concat
  · have room : bufSize - 1 = 1023 := rfl
    rintro (fits | ⟨whole, last⟩)
    · rw [heldText, room, List.take_of_length_le fits]
      exact List.prefix_append _ _
    · obtain ⟨front, rfl⟩ := List.getLast?_eq_some_iff.mp last
      have front_length : front.length = 1023 := by simpa using whole
      rw [heldText, room, List.take_append_of_le_length front_length.ge,
        List.take_of_length_le front_length.le]

/-! ## The write -/

/-- fwrite of `n` bytes makes one write of them, or none to a null stream. -/
theorem fwrite_writes (kernel : Kernel) (st : State) (buf : List UInt8) (stream : Stream) {n : Nat}
    (fits : buf.length < wordModulus) (whole : n ≤ buf.length) (positive : 0 < n) :
    ∃ st' count, fwrite kernel st (some buf) 1 n stream = some (st', count) ∧
      st'.writes = st.writes ++ if stream = .null then [] else
        kernel.calls (st.files stream).fd st.writes.length (flushed (buf.take n)) := by
  by_cases null : stream = .null
  · exact ⟨st, 0, by simp [fwrite, null], by simp [null]⟩
  · have offered : flushed (buf.take n) = [buf.take n] :=
      if_pos (by rw [List.length_take]; omega)
    rw [fwrite_eq kernel st buf fits 1 n null (by omega) (by omega), Nat.one_mul, if_neg null, offered]
    simp only [Kernel.calls]
    generalize buf.take n = bytes
    cases answer : kernel.write st.writes.length (st.files stream).fd bytes.length with
    | none =>
      refine ⟨setErr (write kernel st (st.files stream).fd bytes).1 stream, 0, ?_, ?_⟩
      · simp only [write, answer]
      · simp only [setErr, write, answer]
    | some count =>
      refine ⟨(write kernel st (st.files stream).fd bytes).1, count / 1, ?_, ?_⟩
      · simp only [write, answer]
      · simp only [write, answer]

theorem fwrite_beyond (kernel : Kernel) (st : State) (nonnull : stream ≠ .null) {n : Nat}
    (beyond : buf.length < n) (fits : n < wordModulus) :
    fwrite kernel st (some buf) 1 n stream = none := by
  have total : u64Mul 1 n = n := (u64Mul_of_lt (by omega)).trans (Nat.one_mul n)
  have something : ¬ (stream = .null ∨ 1 = 0 ∨ n = 0) := by
    simp only [nonnull, false_or]
    omega
  refine (if_neg something).trans (if_neg ?_)
  rw [total]
  omega

theorem formatIntoBuf_eq (matching : items (pieces fmt) ap = some (its, ap'))
    (output : its.flatMap Item.bufferText = text) (short : text.length ≤ 2147483647) :
    formatIntoBuf frame fmt ap = some
      (heldText text ++ frame.held.toList.drop (heldText text).length, ap', (text.length : Int)) := by
  obtain ⟨formatted, stored⟩ := buffered_eq frame matching output short
  rw [formatIntoBuf, formatted, Option.bind_some]
  dsimp only
  rw [stored, Option.map_some]

theorem vfprintf_sent (kernel : Kernel) (st : State) (frame : Frame) (stream : Stream)
    (matching : items (pieces fmt) ap = some (its, ap'))
    (output : its.flatMap Item.bufferText = text) (held : text <+: heldText text) :
    ∃ st', vfprintf kernel st frame stream fmt ap = some (st', ap', (text.length : Int)) ∧
      st'.writes = st.writes ++ if stream = .null then [] else
        kernel.calls (st.files stream).fd st.writes.length (flushed text) := by
  have room := held.length_le
  have limit : bufSize = 1024 := rfl
  rw [heldText_length] at room
  rw [vfprintf, formatIntoBuf_eq matching output (by omega), Option.bind_some]
  dsimp only
  have whole : (heldText text ++ frame.held.toList.drop (heldText text).length).take text.length =
      text :=
    (List.prefix_iff_eq_take.mp (held.trans (List.prefix_append _ _))).symm
  have length := buf_length frame text
  generalize heldText text ++ frame.held.toList.drop (heldText text).length = buf at whole length
  by_cases empty : text.length = 0
  · rw [if_neg (by omega), Option.map_some]
    exact ⟨st, rfl, by simp [flushed, empty, Kernel.calls]⟩
  · rw [if_pos (by omega), Int.toNat_natCast]
    obtain ⟨st', count, ran, writes⟩ := fwrite_writes kernel st buf stream
      (n := text.length) (by rw [length]; decide) (by omega) (by omega)
    rw [whole] at writes
    exact ⟨st', by rw [ran, Option.map_some, Option.map_some], writes⟩

theorem writesText_iff (kernel : Kernel) (st : State) (frame : Frame) (stream : Stream)
    (matching : items (pieces fmt) ap = some (its, ap'))
    (output : its.flatMap Item.bufferText = text) (short : text.length ≤ 2147483647) :
    WritesText kernel st frame stream fmt ap text ↔ text <+: heldText text := by
  obtain ⟨formatted, stored⟩ := buffered_eq frame matching output short
  have limit : bufSize = 1024 := rfl
  constructor
  · rintro ⟨⟨stores, rest, buf, formatted', stored', room, whole, -⟩, -⟩
    rw [formatted] at formatted'
    cases formatted'
    rw [stored] at stored'
    cases stored'
    have held := List.prefix_iff_eq_take.mpr whole.symm
    apply List.prefix_of_prefix_length_le held (List.prefix_append _ _)
    rw [heldText_length]
    omega
  · intro held
    have room := held.length_le
    refine ⟨⟨_, _, _, formatted, stored, ?_, ?_, ?_⟩, ?_⟩
    · rw [heldText_length] at room
      omega
    · exact (List.prefix_iff_eq_take.mp (held.trans (List.prefix_append _ _))).symm
    · intro i inside
      rw [indexed_indices, List.mem_range'_1]
      omega
    · obtain ⟨st', ran, writes⟩ := vfprintf_sent kernel st frame stream matching output held
      exact ⟨st', ap', ran, writes⟩

/-- fprintf sends its text, from bytes it has stored, exactly when the text has at
most 1023 bytes, or 1024 of which the last is NUL. The text is what sprintf
stores. -/
theorem fprintf_writes_iff (kernel : Kernel) (st : State) (frame : Frame) (stream : Stream)
    (fmt : CString) (ap : VaList) {its : List Item} {ap' : VaList}
    (matching : items (pieces fmt) ap = some (its, ap')) (text : List UInt8)
    (output : its.flatMap Item.bufferText = text) (short : text.length ≤ 2147483647) :
    (∀ str args, str ≠ 0 → ap = ⟨args, []⟩ →
      sprintf str fmt args = some (indexed 0 (text ++ [0]), ap', (text.length : Int))) ∧
    (WritesText kernel st frame stream fmt ap text ↔
      text.length ≤ 1023 ∨ (text.length = 1024 ∧ text.getLast? = some 0)) := by
  constructor
  · rintro str args nonnull rfl
    subst output
    exact sprintf_items fmt args nonnull matching short
  · rw [← held_iff]
    exact writesText_iff kernel st frame stream matching output short

def exampleFrame : Frame := ⟨4096, by decide, Vector.replicate bufSize 170⟩

def five : VaArg := ⟨5, CString.empty⟩

def shortFormat : CString := ⟨ascii "%3d", by decide, by decide⟩

/-- fprintf(stdout, "%3d", 5) -/
theorem fprintf_writes_iff_short :
    WritesText willingKernel exampleStreams exampleFrame .stdout shortFormat ⟨[five], []⟩
      (ascii "  5") :=
  (fprintf_writes_iff willingKernel exampleStreams exampleFrame .stdout shortFormat ⟨[five], []⟩ rfl
    (ascii "  5") rfl (by decide)).2.mpr (.inl (by decide))

def longFormat : CString := ⟨ascii "%1100d", by decide, by decide⟩

def longItem : Item := .convert ⟨false, false, 1100, false, 100⟩ five

/-- fprintf(stdout, "%1100d", 5) reads past its array. -/
theorem long_text_overruns :
    items (pieces longFormat) ⟨[five], []⟩ = some ([longItem], ⟨[], [.int]⟩) ∧
      longItem.bufferText.length = 1100 ∧
      fprintf willingKernel exampleStreams exampleFrame .stdout longFormat [five] = none ∧
      ¬ WritesText willingKernel exampleStreams exampleFrame .stdout longFormat ⟨[five], []⟩
        longItem.bufferText := by
  have matching : items (pieces longFormat) ⟨[five], []⟩ = some ([longItem], ⟨[], [.int]⟩) := rfl
  have output : [longItem].flatMap Item.bufferText = longItem.bufferText := by simp
  have length : longItem.bufferText.length = 1100 := by
    rw [bufferText_length (fits_of_short (by decide) (by decide))]
    decide
  refine ⟨matching, length, ?_, fun writes => ?_⟩
  · have beyond : (heldText longItem.bufferText ++
        exampleFrame.held.toList.drop (heldText longItem.bufferText).length).length < 1100 := by
      rw [buf_length]
      decide
    rw [fprintf, vfprintf, formatIntoBuf_eq matching output (by omega), Option.bind_some, length]
    dsimp only
    rw [if_pos (by decide), Int.toNat_natCast,
      fwrite_beyond _ _ (by decide) beyond (by decide)]
    rfl
  · rw [writesText_iff _ _ _ _ matching output (by omega), held_iff] at writes
    omega

end AxiomeToolchain.Guarantees.FprintfText
