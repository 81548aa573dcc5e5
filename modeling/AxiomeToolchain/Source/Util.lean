import AxiomeToolchain.Library.ByteMemory
import AxiomeToolchain.Source.Stdio

/-!
# The helpers of util.h

sdk/include/util.h:39-74. `dir` and `name` are the bytes from the pointer to the
end of an object apart from `out`, a buffer in the memory. `none` is a read past
the end of an object. Each step of the join leaves the first `cap - 1` bytes of
the text joined so far.
-/

set_option autoImplicit false

namespace AxiomeToolchain.Source.Util
open AxiomeToolchain.Library.ByteMemory
open AxiomeToolchain.Source.Stdio (CString)

def slash : UInt8 := 47

/-- `while (src[i] && pos + 1 < cap) out[pos] = src[i]`, the position in `out`
moving with that in the source. -/
def copyLoop (m : Memory) (out pos cap : Nat) : List UInt8 → Option (Memory × Nat)
  | [] => none
  | c :: src =>
    if c ≠ 0 ∧ pos + 1 < cap then copyLoop (writeByte m (out + pos) c) out (pos + 1) cap src
    else some (m, pos)

/-- `if (pl > 0 && out[pl - 1] != '/' && pl + 1 < cap) out[pl++] = '/'` -/
def separate (m : Memory) (out pl cap : Nat) : Memory × Nat :=
  if pl > 0 ∧ m (out + pl - 1) ≠ slash ∧ pl + 1 < cap then (writeByte m (out + pl) slash, pl + 1)
  else (m, pl)

def axJoinPath (m : Memory) (dir name : List UInt8) (out cap : Nat) : Option Memory :=
  (copyLoop m out 0 cap dir).bind (fun (m, pl) =>
    let (m, pl) := separate m out pl cap
    (copyLoop m out pl cap name).map (fun (m, stop) => writeByte m (out + stop) 0))

/-- `for (c = p; *c; c++) if (*c == '/') b = c + 1`, `c` and `b` as offsets from `p`. -/
def basenameLoop (c b : Nat) : List UInt8 → Option Nat
  | [] => none
  | x :: p => if x = 0 then some b else basenameLoop (c + 1) (if x = slash then c + 1 else b) p

/-- The offset of the pointer returned from `p`. -/
def axBasename (p : List UInt8) : Option Nat := basenameLoop 0 0 p

/-! ## The text joined so far -/

/-- The memory and the position with `text` in `out`, cut to `cap - 1` bytes. -/
def joined (m : Memory) (out cap : Nat) (text : List UInt8) : Memory × Nat :=
  (writeBytes m out (text.take (cap - 1)), (text.take (cap - 1)).length)

variable (m : Memory) (out cap : Nat) {text bytes : List UInt8}

/-- With room for one more byte nothing has been cut. -/
theorem joined_room (room : (joined m out cap text).2 + 1 < cap) :
    joined m out cap text = (writeBytes m out text, text.length) := by
  have short : text.length ≤ cap - 1 := by
    rw [joined, List.length_take] at room
    omega
  rw [joined, List.take_of_length_le short]

theorem joined_store (b : UInt8) (room : (joined m out cap text).2 + 1 < cap) :
    (writeByte (joined m out cap text).1 (out + (joined m out cap text).2) b,
        (joined m out cap text).2 + 1) =
      joined m out cap (text ++ [b]) := by
  have whole := joined_room m out cap room
  rw [whole] at room ⊢
  have longer : (text ++ [b]).length ≤ cap - 1 := by
    rw [List.length_append, List.length_singleton]
    exact Nat.le_sub_one_of_lt room
  rw [joined, List.take_of_length_le longer, writeBytes_append, List.length_append]
  rfl

/-- Without room what is appended is cut off. -/
theorem joined_full (bytes : List UInt8) (full : ¬(joined m out cap text).2 + 1 < cap) :
    joined m out cap (text ++ bytes) = joined m out cap text := by
  have long : cap - 1 ≤ text.length := by
    rw [joined, List.length_take] at full
    omega
  rw [joined, List.take_append_of_le_length long, joined]

theorem copyLoop_eq (text after : List UInt8) (nul_free : (0 : UInt8) ∉ bytes) :
    copyLoop (joined m out cap text).1 out (joined m out cap text).2 cap
        (bytes ++ 0 :: after) =
      some (joined m out cap (text ++ bytes)) := by
  induction bytes generalizing text with
  | nil =>
    rw [List.nil_append, copyLoop, if_neg (fun both => both.1 rfl), List.append_nil]
  | cons c bytes ih =>
    rw [List.mem_cons, not_or] at nul_free
    rw [List.cons_append, copyLoop]
    by_cases room : (joined m out cap text).2 + 1 < cap
    · have stored := congrArg (fun st => copyLoop st.1 out st.2 cap (bytes ++ 0 :: after))
        (joined_store m out cap c room)
      rw [if_pos ⟨Ne.symm nul_free.1, room⟩, List.append_cons text]
      exact stored.trans (ih (text ++ [c]) nul_free.2)
    · rw [if_neg (fun both => room both.2), joined_full m out cap (c :: bytes) room]

/-! ## The separator -/

def separator (dir : List UInt8) : List UInt8 :=
  if dir ≠ [] ∧ dir.getLast? ≠ some slash then [slash] else []

theorem writeBytes_last (nonempty : text ≠ []) :
    text.getLast? = some (writeBytes m out text (out + text.length - 1)) := by
  have positive : 0 < text.length := List.length_pos_of_ne_nil nonempty
  have last := bytesAt_get (writeBytes m out text) out text.length (text.length - 1) (by omega)
  rw [bytesAt_writeBytes_same, ← Nat.add_sub_assoc positive] at last
  rw [List.getLast?_eq_getElem?, last]

theorem separate_eq (dir : List UInt8) :
    separate (joined m out cap dir).1 out (joined m out cap dir).2 cap =
      joined m out cap (dir ++ separator dir) := by
  rw [separate]
  by_cases room : (joined m out cap dir).2 + 1 < cap
  · have nonempty : (joined m out cap dir).2 > 0 ↔ dir ≠ [] := by
      rw [joined_room m out cap room]
      exact List.length_pos_iff
    have last : dir ≠ [] → ((joined m out cap dir).1
        (out + (joined m out cap dir).2 - 1) ≠ slash ↔ dir.getLast? ≠ some slash) := by
      intro nonempty
      rw [joined_room m out cap room, writeBytes_last m out nonempty]
      exact (not_congr Option.some_inj).symm
    rw [separator]
    by_cases adds : dir ≠ [] ∧ dir.getLast? ≠ some slash
    · rw [if_pos adds, if_pos ⟨nonempty.mpr adds.1, (last adds.1).mpr adds.2, room⟩]
      exact joined_store m out cap slash room
    · rw [if_neg adds, List.append_nil, if_neg]
      rintro ⟨positive, different, -⟩
      exact adds ⟨nonempty.mp positive, (last (nonempty.mp positive)).mp different⟩
  · rw [if_neg (fun all => room all.2.2), joined_full m out cap _ room]

theorem axJoinPath_eq (dir name : CString) (after after' : List UInt8) :
    axJoinPath m (dir.terminated ++ after) (name.terminated ++ after') out cap =
      some (writeBytes m out
        ((dir.bytes ++ separator dir.bytes ++ name.bytes).take (cap - 1) ++ [0])) := by
  have start : joined m out cap [] = (m, 0) := by
    rw [joined, List.take_nil]
    rfl
  have copied := copyLoop_eq m out cap [] after dir.nul_free
  rw [start, List.nil_append] at copied
  have separated := separate_eq m out cap dir.bytes
  have named := copyLoop_eq m out cap (dir.bytes ++ separator dir.bytes) after' name.nul_free
  rw [axJoinPath, CString.terminated_append, CString.terminated_append, copied, Option.bind_some]
  simp only [separated, named, Option.map_some]
  rw [joined, writeBytes_append]
  rfl

/-! ## The base name -/

theorem basenameLoop_plain (c b : Nat) (after : List UInt8) (nul_free : (0 : UInt8) ∉ bytes)
    (plain : slash ∉ bytes) : basenameLoop c b (bytes ++ 0 :: after) = some b := by
  induction bytes generalizing c with
  | nil => rfl
  | cons x bytes ih =>
    rw [List.mem_cons, not_or] at nul_free plain
    rw [List.cons_append, basenameLoop, if_neg (Ne.symm nul_free.1), if_neg (Ne.symm plain.1),
      ih _ nul_free.2 plain.2]

theorem basenameLoop_slash (c b : Nat) (rest : List UInt8) (nul_free : (0 : UInt8) ∉ bytes) :
    basenameLoop c b (bytes ++ slash :: rest) =
      basenameLoop (c + bytes.length + 1) (c + bytes.length + 1) rest := by
  induction bytes generalizing c b with
  | nil => rfl
  | cons x bytes ih =>
    rw [List.mem_cons, not_or] at nul_free
    rw [List.cons_append, basenameLoop, if_neg (Ne.symm nul_free.1), ih _ _ nul_free.2,
      List.length_cons, Nat.add_assoc c 1, Nat.add_comm 1]

/-! ## `ax_mode_str`, with the bits of sdk/include/syscall.h -/

def sIfdir : BitVec 32 := 0x4000
def sIsuid : BitVec 32 := 0o4000
def sIsgid : BitVec 32 := 0o2000
def sIrusr : BitVec 32 := 0o0400
def sIwusr : BitVec 32 := 0o0200
def sIxusr : BitVec 32 := 0o0100
def sIrgrp : BitVec 32 := 0o0040
def sIwgrp : BitVec 32 := 0o0020
def sIxgrp : BitVec 32 := 0o0010
def sIroth : BitVec 32 := 0o0004
def sIwoth : BitVec 32 := 0o0002
def sIxoth : BitVec 32 := 0o0001

def ch (c : Char) : UInt8 := UInt8.ofNat c.toNat

/-- `(m & flag) ? letter : '-'` -/
def shows (m flag : BitVec 32) (letter : Char) : UInt8 := if m &&& flag ≠ 0 then ch letter else ch '-'

/-- `(m & run) ? ((m & set) ? 's' : 'x') : ((m & set) ? 'S' : '-')` -/
def showsRun (m run set : BitVec 32) : UInt8 :=
  if m &&& run ≠ 0 then (if m &&& set ≠ 0 then ch 's' else ch 'x')
  else (if m &&& set ≠ 0 then ch 'S' else ch '-')

/-- The 11 bytes stored in `out`. -/
def axModeStr (m : BitVec 32) : List UInt8 :=
  [shows m sIfdir 'd', shows m sIrusr 'r', shows m sIwusr 'w', showsRun m sIxusr sIsuid,
    shows m sIrgrp 'r', shows m sIwgrp 'w', showsRun m sIxgrp sIsgid, shows m sIroth 'r',
    shows m sIwoth 'w', shows m sIxoth 'x', 0]

end AxiomeToolchain.Source.Util
