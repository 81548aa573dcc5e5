import AxiomeToolchain.Source.StringBuild

/-!
# Building a string piece by piece

strcpy into a buffer and then any sequence of strcat and strncat calls on it.
Each piece is read as it was at the start, so the buffer ends with the
concatenation of the pieces and nothing but the buffer has changed.
-/

set_option autoImplicit false

namespace AxiomeToolchain.Guarantees.StringBuilding
open AxiomeToolchain.Library.ByteMemory
open AxiomeToolchain.Library.CInt
open AxiomeToolchain.Library.TerminatedString
open AxiomeToolchain.Source.StringBuild
open AxiomeToolchain.Source.Stdio (CString ascii)

/-- `strcat(dst, src)` or `strncat(dst, src, n)`. -/
inductive Append where
  | whole (src : Nat)
  | upTo (src n : Nat)

def Append.run (m : Memory) (dst : Nat) : Append → Option Memory
  | .whole src => strcat m dst src
  | .upTo src n => strncat m dst src n

def appendAll (m : Memory) (dst : Nat) : List Append → Option Memory
  | [] => some m
  | call :: rest => (call.run m dst).bind (fun m => appendAll m dst rest)

def build (m : Memory) (dst src : Nat) (calls : List Append) : Option Memory :=
  (strcpy m dst src).bind (fun m => appendAll m dst calls)

/-- The text a call finds at its source. -/
def Append.Takes (m : Memory) : Append → List UInt8 → Prop
  | .whole src, t => StringAt m src t
  | .upTo src n, t => TextAt m src n t

/-- The bytes it reads there do not lie in `[lo, hi)`. -/
def Append.Apart (lo hi : Nat) : Append → List UInt8 → Prop
  | .whole src, t => src + (t.length + 1) ≤ lo ∨ hi ≤ src
  | .upTo src n, t => src + min n (t.length + 1) ≤ lo ∨ hi ≤ src

structure Append.Reads (m : Memory) (lo hi : Nat) (call : Append) (t : List UInt8) : Prop where
  takes : call.Takes m t
  apart : call.Apart lo hi t

variable {m m' : Memory} {dst src lo hi : Nat} {call : Append} {calls : List Append}
  {t old : List UInt8} {texts : List (List UInt8)}

theorem Append.Reads.nul_free (reads : call.Reads m lo hi t) : (0 : UInt8) ∉ t := by
  cases call with
  | whole src => exact StringAt.nul_free reads.takes
  | upTo src n => exact TextAt.nul_free reads.takes

/-- A call reads the same text after stores to `[lo, hi)`. -/
theorem Append.Reads.congr (same : ∀ x, x < lo ∨ hi ≤ x → m' x = m x) (call : Append)
    (t : List UInt8) (reads : call.Reads m lo hi t) : call.Reads m' lo hi t := by
  refine ⟨?_, reads.apart⟩
  obtain ⟨takes, apart⟩ := reads
  cases call with
  | whole src =>
    simp only [Append.Apart] at apart
    exact StringAt.congr takes (fun x low high => same x (by omega))
  | upTo src n =>
    simp only [Append.Apart] at apart
    exact TextAt.congr takes (fun x low high => same x (by omega))

theorem append_step (reads : call.Reads m dst hi t) (target : StringAt m dst old)
    (fits : old.length + t.length < wordModulus) (room : dst + (old.length + t.length) < hi) :
    call.run m dst = some (writeBytes m (dst + old.length) (t ++ [0])) := by
  obtain ⟨takes, apart⟩ := reads
  cases call with
  | whole src =>
    simp only [Append.Apart] at apart
    have run := strcat_eq ⟨t, StringAt.nul_free takes, by omega⟩ ⟨old, target.nul_free, by omega⟩
      takes target
    rw [if_pos (by simp only; omega)] at run
    exact run
  | upTo src n =>
    simp only [Append.Apart] at apart
    exact strncat_eq target (by omega) takes (by omega)

/-- The buffer holds the text so far; every call adds its text. -/
theorem appendAll_exact
    (reads : List.Forall₂ (fun call t => call.Reads m dst hi t) calls texts)
    (target : StringAt m dst old) (room : dst + (old ++ texts.flatten).length < hi)
    (fits : (old ++ texts.flatten).length < wordModulus) :
    ∃ m', appendAll m dst calls = some m' ∧ StringAt m' dst (old ++ texts.flatten) ∧
      ∀ x, x < dst ∨ hi ≤ x → m' x = m x := by
  induction calls generalizing m old texts with
  | nil =>
    cases reads
    exact ⟨m, rfl, by rwa [List.flatten_nil, List.append_nil], fun _ _ => rfl⟩
  | cons call calls ih =>
    obtain ⟨t, rest, first, later, rfl⟩ := List.forall₂_cons_left_iff.mp reads
    rw [List.flatten_cons, ← List.append_assoc] at room fits ⊢
    have total : (old ++ t ++ rest.flatten).length = old.length + t.length + rest.flatten.length := by
      rw [List.length_append, List.length_append]
    rw [total] at room fits
    have run := append_step first target (by omega) (by omega)
    have frame : ∀ x, x < dst ∨ hi ≤ x → writeBytes m (dst + old.length) (t ++ [0]) x = m x := by
      intro x outside
      apply writeBytes_frame
      rw [List.length_append, List.length_singleton]
      omega
    have kept : bytesAt (writeBytes m (dst + old.length) (t ++ [0])) dst old.length = old :=
      (bytesAt_congr _ dst (fun x _ high => writeBytes_frame _ _ _ x (.inl high))).trans target.bytes
    have joined := StringAt.append kept target.nul_free (stringAt_written m _ first.nul_free)
    obtain ⟨m', run', read, frame'⟩ := ih (later.imp (Append.Reads.congr frame)) joined
      (by rw [total]; exact room) (by rw [total]; exact fits)
    refine ⟨m', by rw [appendAll, run]; exact run', read, fun x outside => ?_⟩
    exact (frame' x outside).trans (frame x outside)

/-- For every first string and every sequence of calls whose sources lie outside
a buffer that has room for the result: all calls return, the buffer holds the
concatenation, strlen gives its length, and no byte outside the buffer changes. -/
theorem build_exact (m : Memory) (dst src hi : Nat) (s : CString) (calls : List Append)
    (texts : List (List UInt8)) (start : (Append.whole src).Reads m dst hi s.bytes)
    (reads : List.Forall₂ (fun call t => call.Reads m dst hi t) calls texts)
    (room : dst + (s.bytes ++ texts.flatten).length < hi) (inside : hi ≤ wordModulus) :
    ∃ m', build m dst src calls = some m' ∧ StringAt m' dst (s.bytes ++ texts.flatten) ∧
      strlen m' dst = some (s.bytes ++ texts.flatten).length ∧
      ∀ x, x < dst ∨ hi ≤ x → m' x = m x := by
  obtain ⟨source, apart⟩ := start
  simp only [Append.Apart] at apart
  have copied : strcpy m dst src = _ := strcpy_eq s source
  rw [if_pos (by rw [List.length_append] at room; omega)] at copied
  have frame : ∀ x, x < dst ∨ hi ≤ x → writeBytes m dst s.terminated x = m x := by
    intro x outside
    apply writeBytes_frame
    rw [CString.terminated, List.length_append, List.length_singleton]
    rw [List.length_append] at room
    omega
  obtain ⟨m', run, read, frame'⟩ := appendAll_exact (reads.imp (Append.Reads.congr frame))
    (stringAt_written m dst s.nul_free) room (by omega)
  refine ⟨m', by rw [build, copied]; exact run, read, strlen_eq read (by omega), fun x outside => ?_⟩
  exact (frame' x outside).trans (frame x outside)

/-! ## "/usr" and "/bin" -/

def pathParts : Memory := writeBytes (writeBytes (fun _ => 0) 16 (ascii "/usr")) 32 (ascii "/bin/")

theorem build_exact_usr_bin :
    ∃ m', build pathParts 64 16 [.upTo 32 4] = some m' ∧
      StringAt m' 64 (ascii "/usr" ++ [ascii "/bin"].flatten) := by
  have start : (Append.whole 16).Reads pathParts 64 80 (ascii "/usr") :=
    ⟨⟨by decide, by decide, by decide⟩, .inl (by decide)⟩
  have reads : (Append.upTo 32 4).Reads pathParts 64 80 (ascii "/bin") :=
    ⟨⟨by decide, by decide, by decide, by decide⟩, .inl (by decide)⟩
  obtain ⟨m', run, read, -⟩ := build_exact pathParts 64 16 80 ⟨ascii "/usr", by decide, by decide⟩
    [.upTo 32 4] [ascii "/bin"] start (.cons reads .nil) (by decide) (by decide)
  exact ⟨m', run, read⟩

end AxiomeToolchain.Guarantees.StringBuilding
