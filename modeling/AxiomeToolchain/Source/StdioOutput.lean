import AxiomeToolchain.Library.Runs
import AxiomeToolchain.Source.FormatText

/-!
# What the output calls offer to the kernel

emit collects bytes in outbuf and hands them over 255 at a time; whatever the
kernel answers, the buffers offered depend on the bytes alone. For every output
call `offers` is that list of buffers, and the call makes exactly one write
system call for each of them.
-/

set_option autoImplicit false

namespace AxiomeToolchain.Source.Stdio
open AxiomeToolchain.Library.CInt
open AxiomeToolchain.Library.Sink
open AxiomeToolchain.Library.Runs
open AxiomeToolchain.Source.Format

/-- The write calls for `buffers`, from call number `k` on. -/
def Kernel.calls (kernel : Kernel) (fd : Int) : Nat → List (List UInt8) → List WriteCall
  | _, [] => []
  | k, b :: rest => ⟨fd, b, kernel.write k fd b.length⟩ :: kernel.calls fd (k + 1) rest

/-- The bytes waiting in outbuf. -/
def State.pending (st : State) : List UInt8 := st.outbuf.toList.take st.outlen

/-- The buffers emit hands over when `held` is waiting, and what waits at the end. -/
def split : List UInt8 → List UInt8 → List (List UInt8) × List UInt8
  | held, [] => ([], held)
  | held, c :: rest =>
    if held.length + 1 ≥ outbufSize - 1 then
      ((held ++ [c]) :: (split [] rest).1, (split [] rest).2)
    else split (held ++ [c]) rest

/-- The buffers of a flush. -/
def flushed (held : List UInt8) : List (List UInt8) := if held.length > 0 then [held] else []

/-- The buffers of a call that emits `bytes` and flushes. -/
def buffers (bytes : List UInt8) : List (List UInt8) :=
  (split [] bytes).1 ++ flushed (split [] bytes).2

variable {kernel : Kernel} {st st' : State} {k : Nat} {fd : Int} {held bytes xs : List UInt8}

theorem Kernel.calls_append (bs cs : List (List UInt8)) :
    kernel.calls fd k (bs ++ cs) = kernel.calls fd k bs ++ kernel.calls fd (k + bs.length) cs := by
  induction bs generalizing k with
  | nil => rfl
  | cons b rest ih =>
    rw [List.cons_append, Kernel.calls, ih, Kernel.calls, List.cons_append, List.length_cons]
    rw [show k + 1 + rest.length = k + (rest.length + 1) by omega]

theorem Kernel.calls_length (bs : List (List UInt8)) : (kernel.calls fd k bs).length = bs.length := by
  induction bs generalizing k with
  | nil => rfl
  | cons b rest ih => rw [Kernel.calls, List.length_cons, ih, List.length_cons]

theorem flushed_flatten (held : List UInt8) : (flushed held).flatten = held := by
  cases held <;> simp [flushed]

theorem split_flatten (held bytes : List UInt8) :
    (split held bytes).1.flatten ++ (split held bytes).2 = held ++ bytes := by
  induction bytes generalizing held with
  | nil => simp [split]
  | cons c rest ih =>
    rw [split]
    split
    · have later := ih []
      rw [List.nil_append] at later
      rw [List.flatten_cons, List.append_assoc, later, List.append_assoc, List.singleton_append]
    · rw [ih]
      simp

theorem buffers_flatten (bytes : List UInt8) : (buffers bytes).flatten = bytes := by
  rw [buffers, List.flatten_append, flushed_flatten, split_flatten, List.nil_append]

theorem State.pending_length (room : st.outlen ≤ outbufSize) : st.pending.length = st.outlen := by
  simp only [State.pending, List.length_take, Vector.length_toList]
  omega

theorem State.pending_idle (idle : st.outlen = 0) : st.pending = [] := by
  simp [State.pending, idle]

/-- What emits and flushes keep and change; `held` is waiting afterwards. -/
structure Emitted (kernel : Kernel) (st st' : State) (offered : List (List UInt8))
    (held : List UInt8) : Prop where
  room : st'.outlen ≤ outbufSize - 2
  waiting : st'.pending = held
  writes : st'.writes = st.writes ++ kernel.calls 1 st.writes.length offered
  files : st'.files = st.files
  reads : st'.reads = st.reads

theorem flush_emitted (kernel : Kernel) (room : st.outlen ≤ outbufSize) :
    Emitted kernel st (flush kernel st) (flushed st.pending) [] ∧ (flush kernel st).outlen = 0 := by
  have length := st.pending_length room
  unfold flush flushed
  split
  · next nonempty =>
    rw [if_pos (by omega)]
    exact ⟨⟨Nat.zero_le _, rfl, rfl, rfl, rfl⟩, rfl⟩
  · next isEmpty =>
    rw [if_neg (by omega)]
    have idle : st.outlen = 0 := by omega
    have room : st.outlen ≤ outbufSize - 2 := by rw [idle]; exact Nat.zero_le _
    exact ⟨⟨room, st.pending_idle idle, (List.append_nil _).symm, rfl, rfl⟩, idle⟩

theorem Emitted.trans {st'' : State} {bs cs : List (List UInt8)} (first : Emitted kernel st st' bs held)
    (second : Emitted kernel st' st'' cs xs) : Emitted kernel st st'' (bs ++ cs) xs where
  room := second.room
  waiting := second.waiting
  writes := by
    rw [second.writes, first.writes, List.length_append, Kernel.calls_append, Kernel.calls_length,
      List.append_assoc]
  files := second.files.trans first.files
  reads := second.reads.trans first.reads

/-- One emit never leaves outbuf, and hands it over when 255 bytes are in it. -/
theorem emit_emitted (kernel : Kernel) (room : st.outlen ≤ outbufSize - 2) (c : UInt8) :
    ∃ st', emit kernel st c = some st' ∧
      Emitted kernel st st' (split st.pending [c]).1 (split st.pending [c]).2 := by
  have inside : st.outlen < outbufSize := by unfold outbufSize at *; omega
  have length := st.pending_length (Nat.le_of_lt inside)
  let next : State :=
    { st with outbuf := st.outbuf.set st.outlen c inside, outlen := st.outlen + 1 }
  have stored : next.pending = st.pending ++ [c] := by
    simp only [next, State.pending, Vector.toList_set]
    rw [List.take_add_one, List.take_set_of_le (Nat.le_refl _)]
    simp [inside]
  have next_room : next.outlen ≤ outbufSize := inside
  refine ⟨_, dif_pos inside, ?_⟩
  simp only [split, length]
  by_cases full : st.outlen + 1 ≥ outbufSize - 1
  · rw [if_pos full, if_pos full]
    obtain ⟨handed, -⟩ := flush_emitted kernel next_room
    have buffer : flushed next.pending = [st.pending ++ [c]] := by
      rw [stored, flushed, if_pos (by simp)]
    rw [buffer] at handed
    exact ⟨handed.room, handed.waiting, handed.writes, handed.files, handed.reads⟩
  · rw [if_neg full, if_neg full]
    exact ⟨by simp only; omega, stored, (List.append_nil _).symm, rfl, rfl⟩

theorem split_cons (held : List UInt8) (c : UInt8) (rest : List UInt8) :
    split held (c :: rest) =
      ((split held [c]).1 ++ (split (split held [c]).2 rest).1, (split (split held [c]).2 rest).2) := by
  simp only [split]
  split <;> simp

/-- Emitting a list, from any fill of outbuf. -/
theorem putAll_emitted (kernel : Kernel) (room : st.outlen ≤ outbufSize - 2) (bytes : List UInt8) :
    ∃ st', putAll (emit kernel) st bytes = some st' ∧
      Emitted kernel st st' (split st.pending bytes).1 (split st.pending bytes).2 := by
  induction bytes generalizing st with
  | nil => exact ⟨st, rfl, room, rfl, (List.append_nil _).symm, rfl, rfl⟩
  | cons c rest ih =>
    obtain ⟨next, step, first⟩ := emit_emitted kernel room c
    obtain ⟨last, run, later⟩ := ih first.room
    rw [first.waiting] at later
    refine ⟨last, by rw [putAll_cons, step]; exact run, ?_⟩
    rw [split_cons]
    exact first.trans later

/-! ## The output calls -/

/-- A call between calls: outbuf is empty before and after. -/
structure Sent (kernel : Kernel) (st st' : State) (fd : Int) (offered : List (List UInt8)) : Prop where
  idle : st'.outlen = 0
  writes : st'.writes = st.writes ++ kernel.calls fd st.writes.length offered
  reads : st'.reads = st.reads

/-- A buffered call: emit some bytes, then flush. -/
theorem putAll_flush_sent (kernel : Kernel) (idle : st.outlen = 0) (bytes : List UInt8) :
    ∃ st', putAll (emit kernel) st bytes = some st' ∧
      Sent kernel st (flush kernel st') 1 (buffers bytes) ∧ (flush kernel st').files = st.files := by
  have room : st.outlen ≤ outbufSize - 2 := by rw [idle]; exact Nat.zero_le _
  obtain ⟨st', run, emitted⟩ := putAll_emitted kernel room bytes
  have inside : st'.outlen ≤ outbufSize := Nat.le_trans emitted.room (Nat.sub_le _ _)
  obtain ⟨handed, empty⟩ := flush_emitted kernel inside
  have both := emitted.trans handed
  rw [emitted.waiting, st.pending_idle idle] at both
  exact ⟨st', run, ⟨empty, both.writes, both.reads⟩, both.files⟩

end AxiomeToolchain.Source.Stdio
