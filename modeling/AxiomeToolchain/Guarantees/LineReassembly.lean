import AxiomeToolchain.Source.StdioLines

/-!
# fgets until NULL

A caller that calls fgets on one array until it gets NULL sees the file cut into
lines of at most size - 1 bytes. Every call takes from the kernel the bytes it
returns and nothing ahead, so no byte is lost between calls.
-/

set_option autoImplicit false

namespace AxiomeToolchain.Guarantees.LineReassembly
open AxiomeToolchain.Library.ByteMemory
open AxiomeToolchain.Library.Lines
open AxiomeToolchain.Source.Stdio

/-- The call stores into the array only, a string that ends there, and returns
what it consumed. -/
structure Faithful (s : Nat) (size : Int) (call : LineCall) : Prop where
  frame : ∀ x, x < s ∨ s + size.toNat ≤ x → call.stored x = call.memory x
  terminated : call.stored (s + (call.piece s size).length) = 0
  consumed : call.consumed = call.piece s size

variable {kernel : Kernel} {stream : Stream} {st st' : State} {m : Memory} {s : Nat} {size : Int}
  {content line : List UInt8}

theorem consumed_eq (consumed : Consumed st st' line) (m m' : Memory) :
    (LineCall.mk st m st' m').consumed = line := by
  obtain ⟨calls, reads, bytes⟩ := consumed
  rw [LineCall.consumed, reads, List.drop_left, bytes]

theorem piece_eq (st st' : State) (m : Memory) (s : Nat) (nul_free : (0 : UInt8) ∉ line)
    (fits : line.length + 1 ≤ size.toNat) :
    (LineCall.mk st m st' (writeBytes m s (line ++ [0]))).piece s size = line := by
  obtain ⟨k, length⟩ := Nat.exists_eq_add_of_le fits
  have held := bytesAt_writeBytes_same (line ++ [0]) m s
  rw [List.length_append, List.length_singleton] at held
  have nonzero : ∀ c ∈ line, decide (c ≠ 0) = true := by
    intro c member
    exact decide_eq_true (fun zero => nul_free (zero ▸ member))
  rw [LineCall.piece, length, bytesAt_add, held, List.append_assoc,
    List.takeWhile_append_of_pos nonzero]
  simp

theorem written_faithful (consumed : Consumed st st' line) (nul_free : (0 : UInt8) ∉ line)
    (fits : line.length + 1 ≤ size.toNat) :
    Faithful s size ⟨st, m, st', writeBytes m s (line ++ [0])⟩ where
  frame := by
    intro x outside
    apply writeBytes_frame
    rw [List.length_append, List.length_singleton]
    omega
  terminated := by
    rw [piece_eq st st' m s nul_free fits]
    have held := bytesAt_writeBytes_same (line ++ [0]) m s
    rw [List.length_append, List.length_singleton, bytesAt_add] at held
    exact (List.cons.inj (List.append_inj' held rfl).2).1
  consumed := by rw [consumed_eq consumed, piece_eq st st' m s nul_free fits]

/-- A call that returns a line is the first of the run. -/
theorem fgetsAll_line (nonnull : s ≠ 0) (fuel : Nat)
    (run : fgets kernel st size stream = (st', some line)) {calls : List LineCall} {last : LineCall}
    (later : fgetsAll kernel s size stream fuel st' (writeBytes m s (line ++ [0])) =
      some (calls, last)) :
    fgetsAll kernel s size stream (fuel + 1) st m =
      some (⟨st, m, st', writeBytes m s (line ++ [0])⟩ :: calls, last) := by
  rw [fgetsAll, fgetsInto_eq, run]
  simp only [Option.isSome_some, if_true, if_neg nonnull, Option.map_some, Option.getD_some, later]

/-- The run lemma: the calls cut what the stream still delivers into lines. -/
theorem fgetsAll_cut (nonnull : s ≠ 0) (large : 2 ≤ size) (fuel : Nat) (st : State) (m : Memory)
    (content : List UInt8) (nul_free : (0 : UInt8) ∉ content)
    (delivers : Delivers kernel stream st content) (enough : content.length < fuel) :
    ∃ calls last, fgetsAll kernel s size stream fuel st m = some (calls, last) ∧
      Cut 10 (size - 1).toNat content (calls.map (fun call => call.piece s size)) ∧
      (∀ call ∈ calls, Faithful s size call) ∧ last.stored = last.memory ∧ last.consumed = [] := by
  induction fuel generalizing st m content with
  | zero => exact absurd enough (Nat.not_lt_zero _)
  | succ fuel ih =>
    by_cases ended : content = []
    · subst ended
      obtain ⟨st', run, -, consumed⟩ := fgets_null large delivers
      refine ⟨[], ⟨st, m, st', m⟩, ?_, .done, List.forall_mem_nil _, rfl, consumed_eq consumed m m⟩
      rw [fgetsAll, fgetsInto_eq, run]
      rfl
    · obtain ⟨st', run, after, consumed⟩ := fgets_line large ended delivers
      have whole := firstLine_append 10 (size - 1).toNat content
      have short := firstLine_short 10 (size - 1).toNat content
      have nonempty := firstLine_nonempty 10 (show 0 < (size - 1).toNat by omega) ended
      have positive := List.length_pos_of_ne_nil nonempty
      have left_over := List.length_pos_of_ne_nil ended
      have line_free : (0 : UInt8) ∉ firstLine 10 (size - 1).toNat content :=
        fun member => nul_free (whole ▸ List.mem_append_left _ member)
      have rest_free : (0 : UInt8) ∉ content.drop (firstLine 10 (size - 1).toNat content).length :=
        fun member => nul_free (List.mem_of_mem_drop member)
      have fits : (firstLine 10 (size - 1).toNat content).length + 1 ≤ size.toNat := by omega
      obtain ⟨calls, last, later, cut, faithful, nothing⟩ :=
        ih st' (writeBytes m s (firstLine 10 (size - 1).toNat content ++ [0])) _ rest_free after (by
          rw [List.length_drop]
          omega)
      have piece := piece_eq st st' m s line_free fits
      refine ⟨_, last, fgetsAll_line nonnull fuel run later, ?_, ?_, nothing⟩
      · rw [List.map_cons, piece]
        exact .next ended cut
      · rw [List.forall_mem_cons]
        exact ⟨written_faithful consumed line_free fits, faithful⟩

/-- For every file without NUL bytes and every size from 2 on: the calls until
NULL return the file, in lines that are not empty, have at most size - 1 bytes
and a newline at most at their end; a line that is not the last ends with one or
is full. Each call stores inside the array and consumes what it returns. -/
theorem fgets_reassembles (kernel : Kernel) (stream : Stream) (st : State) (m : Memory) (s : Nat)
    (size : Int) (nonnull : s ≠ 0) (large : 2 ≤ size) (content : List UInt8)
    (nul_free : (0 : UInt8) ∉ content) (delivers : Delivers kernel stream st content) (fuel : Nat)
    (enough : content.length < fuel) :
    ∃ calls last, fgetsAll kernel s size stream fuel st m = some (calls, last) ∧
      (calls.map (fun call => call.piece s size)).flatten = content ∧
      (∀ call ∈ calls, Line 10 (size - 1).toNat (call.piece s size) ∧ Faithful s size call) ∧
      (∀ front call back, calls = front ++ call :: back → back ≠ [] →
        Full 10 (size - 1).toNat (call.piece s size)) ∧
      last.stored = last.memory ∧ last.consumed = [] := by
  obtain ⟨calls, last, run, cut, faithful, nothing⟩ :=
    fgetsAll_cut nonnull large fuel st m content nul_free delivers enough
  have lines := cut.line (show 0 < (size - 1).toNat by omega)
  refine ⟨calls, last, run, cut.flatten_eq, ?_, ?_, nothing⟩
  · intro call member
    exact ⟨lines _ (List.mem_map_of_mem member), faithful call member⟩
  · intro front call back split more
    have pieces : calls.map (fun call => call.piece s size) =
        front.map (fun call => call.piece s size) ++
          call.piece s size :: back.map (fun call => call.piece s size) := by
      rw [split, List.map_append, List.map_cons]
    exact cut.full pieces (by simpa using more)

/-- A file on every descriptor, read from its start. -/
def fileKernel (content : List UInt8) : Kernel :=
  { willingKernel with
    read := fun k _ len => some (((content.drop k).take 1).take len)
    read_count := fun answer => by
      cases answer
      exact List.length_take_le _ _ }

theorem fileKernel_delivers (content : List UInt8) :
    Delivers (fileKernel content) .stdin exampleStreams content where
  nonnull := Stream.noConfusion
  reads := by
    intro i
    have fresh : exampleStreams.reads.length + i = i := Nat.zero_add i
    have one : ((content.drop i).take 1).take 1 = (content.drop i).take 1 := by
      rw [List.take_take, Nat.min_self]
    exact congrArg some (fresh.symm ▸ one)

/-- A newline at the limit, a byte 0xFF, an end without newline. -/
def exampleFile : List UInt8 := [97, 10, 0xFF, 98, 99]

example : (fgetsAll (fileKernel exampleFile) 4096 3 .stdin 6 exampleStreams (fun _ => 0)).map
    (fun out => out.1.map (fun call => call.piece 4096 3)) =
      some [[97, 10], [0xFF, 98], [99]] := by decide

theorem fgets_reassembles_example : ∃ calls last,
    fgetsAll (fileKernel exampleFile) 4096 3 .stdin 6 exampleStreams (fun _ => 0) =
        some (calls, last) ∧
      (calls.map (fun call => call.piece 4096 3)).flatten = exampleFile := by
  obtain ⟨calls, last, run, whole, -⟩ := fgets_reassembles (fileKernel exampleFile) .stdin
    exampleStreams (fun _ => 0) 4096 3 (by decide) (by decide) exampleFile (by decide)
    (fileKernel_delivers exampleFile) 6 (by decide)
  exact ⟨calls, last, run, whole⟩

end AxiomeToolchain.Guarantees.LineReassembly
