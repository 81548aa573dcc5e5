import AxiomeToolchain.Library.CInt
import AxiomeToolchain.Source.Util

/-!
# The mode of a file as text

The ten characters of `ax_mode_str` share their places between bits, the execute
bits with set-user-id and set-group-id, and leave out part of the word; what they
do show can be read back from them.
-/

set_option autoImplicit false

namespace AxiomeToolchain.Guarantees.ModeText
open AxiomeToolchain.Library.CInt
open AxiomeToolchain.Source.Util

/-- The bits that have a place in the text. -/
def shownFlags : List (BitVec 32) :=
  [sIfdir, sIrusr, sIwusr, sIxusr, sIsuid, sIrgrp, sIwgrp, sIxgrp, sIsgid, sIroth, sIwoth, sIxoth]

def flagIf (present : Bool) (flag : BitVec 32) : BitVec 32 := if present then flag else 0

def modeOf : List UInt8 → Option (BitVec 32)
  | [dir, ur, uw, ux, gr, gw, gx, or, ow, ox, 0] =>
    some (union [flagIf (dir = ch 'd') sIfdir, flagIf (ur = ch 'r') sIrusr, flagIf (uw = ch 'w') sIwusr,
      flagIf (ux = ch 'x' || ux = ch 's') sIxusr, flagIf (ux = ch 's' || ux = ch 'S') sIsuid,
      flagIf (gr = ch 'r') sIrgrp, flagIf (gw = ch 'w') sIwgrp,
      flagIf (gx = ch 'x' || gx = ch 's') sIxgrp, flagIf (gx = ch 's' || gx = ch 'S') sIsgid,
      flagIf (or = ch 'r') sIroth, flagIf (ow = ch 'w') sIwoth, flagIf (ox = ch 'x') sIxoth])
  | _ => none

variable {m run set flag : BitVec 32} {letter : Char}

theorem flagIf_shows (isFlag : IsFlag flag) (other : ch letter ≠ ch '-') :
    flagIf (shows m flag letter = ch letter) flag = m &&& flag := by
  rw [← and_flag m isFlag, flagIf, shows]
  by_cases bit : m &&& flag = 0#32
  · simp [bit, other.symm]
  · simp [bit]

theorem flagIf_run (isFlag : IsFlag run) :
    flagIf (showsRun m run set = ch 'x' || showsRun m run set = ch 's') run = m &&& run := by
  have letters : ch 'S' ≠ ch 'x' ∧ ch 'S' ≠ ch 's' ∧ ch '-' ≠ ch 'x' ∧ ch '-' ≠ ch 's' := by decide
  rw [← and_flag m isFlag, flagIf, showsRun]
  by_cases bit : m &&& run = 0#32
  · by_cases also : m &&& set = 0#32 <;> simp [bit, also, letters]
  · by_cases also : m &&& set = 0#32 <;> simp [bit, also]

theorem flagIf_set (isFlag : IsFlag set) :
    flagIf (showsRun m run set = ch 's' || showsRun m run set = ch 'S') set = m &&& set := by
  have letters : ch 'x' ≠ ch 's' ∧ ch 'x' ≠ ch 'S' ∧ ch '-' ≠ ch 's' ∧ ch '-' ≠ ch 'S' := by decide
  rw [← and_flag m isFlag, flagIf, showsRun]
  by_cases also : m &&& set = 0#32
  · by_cases bit : m &&& run = 0#32 <;> simp [bit, also, letters]
  · by_cases bit : m &&& run = 0#32 <;> simp [bit, also]

theorem shown_are_flags : ∀ flag ∈ shownFlags, IsFlag flag := by
  simp only [shownFlags, List.forall_mem_cons, List.not_mem_nil, false_imp_iff, implies_true,
    and_true]
  exact ⟨⟨14, rfl⟩, ⟨8, rfl⟩, ⟨7, rfl⟩, ⟨6, rfl⟩, ⟨11, rfl⟩, ⟨5, rfl⟩, ⟨4, rfl⟩, ⟨3, rfl⟩, ⟨10, rfl⟩,
    ⟨2, rfl⟩, ⟨1, rfl⟩, ⟨0, rfl⟩⟩

theorem shown_within : ∀ flag ∈ shownFlags, union shownFlags &&& flag = flag := by
  have all : union shownFlags = 0x4dff#32 := rfl
  rw [all]
  simp only [shownFlags, List.forall_mem_cons, List.not_mem_nil, false_imp_iff, implies_true,
    and_true]
  exact ⟨rfl, rfl, rfl, rfl, rfl, rfl, rfl, rfl, rfl, rfl, rfl, rfl⟩

/-- The text gives back the bits that it shows. -/
theorem modeOf_axModeStr (m : BitVec 32) : modeOf (axModeStr m) = some (m &&& union shownFlags) := by
  have isFlag := shown_are_flags
  simp only [shownFlags, List.forall_mem_cons, List.not_mem_nil, false_imp_iff, implies_true,
    and_true] at isFlag
  obtain ⟨dir, ur, uw, ux, uid, gr, gw, gx, gid, or, ow, ox⟩ := isFlag
  have d : ch 'd' ≠ ch '-' := by decide
  have r : ch 'r' ≠ ch '-' := by decide
  have w : ch 'w' ≠ ch '-' := by decide
  have x : ch 'x' ≠ ch '-' := by decide
  rw [axModeStr, modeOf, and_union, flagIf_shows dir d, flagIf_shows ur r, flagIf_shows uw w,
    flagIf_run ux, flagIf_set uid, flagIf_shows gr r, flagIf_shows gw w, flagIf_run gx,
    flagIf_set gid, flagIf_shows or r, flagIf_shows ow w, flagIf_shows ox x]
  rfl

/-- Nothing else of the word goes into the text. -/
theorem axModeStr_shown (m : BitVec 32) : axModeStr (m &&& union shownFlags) = axModeStr m := by
  have same : ∀ flag ∈ shownFlags, (m &&& union shownFlags) &&& flag = m &&& flag :=
    fun flag member => and_within (shown_within flag member) m
  simp only [shownFlags, List.forall_mem_cons, List.not_mem_nil, false_imp_iff, implies_true,
    and_true] at same
  obtain ⟨dir, ur, uw, ux, uid, gr, gw, gx, gid, or, ow, ox⟩ := same
  simp only [axModeStr, shows, showsRun, shownFlags, dir, ur, uw, ux, uid, gr, gw, gx, gid, or, ow, ox]

theorem shows_ne_zero (m flag : BitVec 32) (visible : ch letter ≠ 0) : shows m flag letter ≠ 0 := by
  unfold shows
  split
  · exact visible
  · decide

theorem showsRun_ne_zero (m run set : BitVec 32) : showsRun m run set ≠ 0 := by
  unfold showsRun
  split <;> split <;> decide

/-- The text ends behind ten characters. -/
theorem axModeStr_string (m : BitVec 32) :
    (axModeStr m).takeWhile (· ≠ 0) = (axModeStr m).take 10 := by
  have d : ch 'd' ≠ 0 := by decide
  have r : ch 'r' ≠ 0 := by decide
  have w : ch 'w' ≠ 0 := by decide
  have x : ch 'x' ≠ 0 := by decide
  have cut : axModeStr m = (axModeStr m).take 10 ++ [0] := rfl
  have visible : ∀ c ∈ (axModeStr m).take 10, c ≠ 0 := by
    simp [axModeStr, shows_ne_zero, showsRun_ne_zero, d, r, w, x]
  conv_lhs => rw [cut]
  rw [List.takeWhile_append_of_pos (by simpa using visible)]
  simp

/-- For every mode: the text is a string of ten characters from which the type,
the nine permissions and the two set-id bits come back, and two modes have one
text exactly if they agree in these. -/
theorem mode_text (m : BitVec 32) :
    (axModeStr m).takeWhile (· ≠ 0) = (axModeStr m).take 10 ∧ (axModeStr m).length = 11 ∧
      modeOf (axModeStr m) = some (m &&& union shownFlags) ∧
      ∀ m', axModeStr m' = axModeStr m ↔ m' &&& union shownFlags = m &&& union shownFlags := by
  refine ⟨axModeStr_string m, rfl, modeOf_axModeStr m, fun m' => ⟨fun same => ?_, fun same => ?_⟩⟩
  · have read := congrArg modeOf same
    rw [modeOf_axModeStr, modeOf_axModeStr] at read
    exact Option.some.inj read
  · rw [← axModeStr_shown m', same, axModeStr_shown]

end AxiomeToolchain.Guarantees.ModeText
