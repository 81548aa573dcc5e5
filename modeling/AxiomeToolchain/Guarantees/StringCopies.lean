import AxiomeToolchain.Source.StringBuild

/-!
# What the string copies do when source and destination overlap

memcpy upwards into its own source fills the destination with the bytes in
front of it, over and over. strcpy and strcat have no count: where the store of
a byte comes before its read they overwrite the terminator and never stop. The
bounded copies always stop, but strncpy need not leave a terminator.
-/

set_option autoImplicit false

namespace AxiomeToolchain.Guarantees.StringCopies
open AxiomeToolchain.Library.ByteMemory
open AxiomeToolchain.Library.CInt
open AxiomeToolchain.Library.TerminatedString
open AxiomeToolchain.Source.StringCopy
open AxiomeToolchain.Source.StringBuild
open AxiomeToolchain.Source.Stdio (CString ascii)

variable {m : Memory} {dst src k n i left : Nat} {s t : List UInt8}

/-! ## memcpy upwards -/

/-- `m` with the `k` bytes from `src` on repeated through the next `n` bytes. -/
def periodic (m : Memory) (src k n : Nat) : Memory := fun x =>
  if src ≤ x ∧ x < src + k + n then m (src + (x - src) % k) else m x

theorem periodic_zero (m : Memory) (src k : Nat) : periodic m src k 0 = m := by
  funext x
  rw [periodic]
  split
  · next inside => rw [Nat.mod_eq_of_lt (by omega), Nat.add_sub_cancel' inside.1]
  · rfl

/-- One round of the loop copies a byte that is already the repeated one. -/
theorem periodic_succ (m : Memory) (src k i : Nat) (k_pos : 0 < k) :
    writeByte (periodic m src k i) (src + k + i) (periodic m src k i (src + i)) =
      periodic m src k (i + 1) := by
  have copied : periodic m src k i (src + i) = m (src + i % k) := by
    rw [periodic, if_pos (by omega), Nat.add_sub_cancel_left]
  funext x
  by_cases here : x = src + k + i
  · subst here
    rw [writeByte_same, copied, periodic, if_pos (by omega),
      show src + k + i - src = i + k by omega, Nat.add_mod_right]
  · rw [writeByte_other _ _ _ _ here]
    simp only [periodic]
    by_cases inside : src ≤ x ∧ x < src + k + i
    · rw [if_pos inside, if_pos (by omega)]
    · rw [if_neg inside, if_neg (by omega)]

theorem memcpyLoop_periodic (k_pos : 0 < k) (left i : Nat) :
    memcpyLoop (periodic m src k i) (src + k) src i left = periodic m src k (i + left) := by
  induction left generalizing i with
  | zero => rfl
  | succ left ih =>
    rw [memcpyLoop, periodic_succ m src k i k_pos, ih, Nat.add_right_comm, Nat.add_assoc]

/-- For every memory, count and distance upwards: memcpy leaves the first `k`
source bytes repeated through the destination and every other byte as it was. -/
theorem memcpy_upwards (m : Memory) (src k n : Nat) (k_pos : 0 < k) :
    (∀ i < n, memcpy m (src + k) src n (src + k + i) = m (src + i % k)) ∧
      ∀ x, x < src + k ∨ src + k + n ≤ x → memcpy m (src + k) src n x = m x := by
  have run : memcpy m (src + k) src n = periodic m src k n := by
    have start : memcpyLoop (periodic m src k 0) (src + k) src 0 n = periodic m src k (0 + n) :=
      memcpyLoop_periodic k_pos n 0
    rwa [periodic_zero, Nat.zero_add] at start
  rw [run]
  constructor
  · intro i inside
    rw [periodic, if_pos (by omega), show src + k + i - src = i + k by omega, Nat.add_mod_right]
  · intro x outside
    rw [periodic]
    split
    · next within =>
      have front : x < src + k := by omega
      rw [Nat.mod_eq_of_lt (by omega), Nat.add_sub_cancel' within.1]
    · rfl

/-- The last of 8 bytes copied up by 3. -/
theorem memcpy_upwards_three : memcpy (fun x => UInt8.ofNat x) (4 + 3) 4 8 (4 + 3 + 7) = 5 :=
  (memcpy_upwards (fun x => UInt8.ofNat x) 4 3 8 (by decide)).1 7 (by decide)

/-! ## strcpy and strcat -/

/-- For every pair of strings: strcpy and strcat return exactly if the
destination of the copy does not lie in (source, terminator of the source], and
then have stored the string with its terminator and nothing else. Where they do
not return no number of further steps ends the loop. -/
theorem unbounded_copies (m : Memory) (dst src : Nat) (s t : CString)
    (source : StringAt m src s.bytes) (target : StringAt m dst t.bytes) :
    (strcpy m dst src =
      if dst ≤ src ∨ src + s.bytes.length < dst then some (writeBytes m dst s.terminated)
      else none) ∧
    (strcat m dst src =
      if dst + t.bytes.length ≤ src ∨ src + s.bytes.length < dst + t.bytes.length then
        some (writeBytes m (dst + t.bytes.length) s.terminated)
      else none) ∧
    (∀ d, src < d → d ≤ src + s.bytes.length → ∀ budget, copyLoop budget m d src = none) ∧
    ∀ m', strcat m dst src = some m' → StringAt m' dst (t.bytes ++ s.bytes) := by
  refine ⟨strcpy_eq s source, strcat_eq s t source target,
    fun d above inside budget => copyLoop_overlap source above inside, fun m' run => ?_⟩
  rw [strcat_eq s t source target] at run
  split at run
  · cases run
    -- What is behind the first string starts at its terminator, so its bytes stay.
    have kept : bytesAt (writeBytes m (dst + t.bytes.length) s.terminated) dst t.bytes.length =
        t.bytes :=
      (bytesAt_congr _ dst (fun x _ high => writeBytes_frame _ _ _ x (.inl high))).trans
        target.bytes
    exact .append kept t.nul_free (stringAt_written m _ s.nul_free)
  · cases run

def twoStrings : Memory := writeBytes (writeBytes (fun _ => 0) 16 (ascii "xy")) 32 (ascii "cde")

def xy : CString := ⟨ascii "xy", by decide, by decide⟩
def cde : CString := ⟨ascii "cde", by decide, by decide⟩

theorem twoStrings_xy : StringAt twoStrings 16 xy.bytes := ⟨by decide, by decide, by decide⟩
theorem twoStrings_cde : StringAt twoStrings 32 cde.bytes := ⟨by decide, by decide, by decide⟩

theorem unbounded_copies_joined :
    ∃ m', strcat twoStrings 16 32 = some m' ∧ StringAt m' 16 (ascii "xy" ++ ascii "cde") := by
  obtain ⟨-, joined, -, reads⟩ := unbounded_copies twoStrings 16 32 cde xy twoStrings_cde twoStrings_xy
  rw [if_pos (.inl (by decide))] at joined
  exact ⟨_, joined, reads _ joined⟩

/-! ## strncpy and strncat -/

theorem zero_in_padded (nul_free : (0 : UInt8) ∉ t) (short : t.length ≤ n) :
    (0 : UInt8) ∈ t ++ List.replicate (n - t.length) 0 ↔ t.length < n := by
  rw [List.mem_append, List.mem_replicate]
  constructor
  · intro found
    have padded := (found.resolve_left nul_free).1
    omega
  · intro less
    exact .inr ⟨by omega, rfl⟩

/-- For every text of at most `n` bytes that a bounded reader sees at the source,
with no store before the read of its byte: strncpy stores exactly `n` bytes, the
text and then zeros, and leaves a terminator among them exactly if the text is
shorter than `n`; strncat puts the text and a terminator behind the old string,
whatever `n` is. -/
theorem bounded_copies (m : Memory) (dst src n : Nat) (t : List UInt8) (old : CString)
    (text : TextAt m src n t) (target : StringAt m dst old.bytes) :
    (dst ≤ src ∨ src + min n (t.length + 1) ≤ dst →
      bytesAt (strncpy m dst src n) dst n = t ++ List.replicate (n - t.length) 0 ∧
        (∀ x, x < dst ∨ dst + n ≤ x → strncpy m dst src n x = m x) ∧
        ((0 : UInt8) ∈ bytesAt (strncpy m dst src n) dst n ↔ t.length < n)) ∧
    (dst + old.bytes.length ≤ src ∨ src + min n (t.length + 1) ≤ dst + old.bytes.length →
      ∃ m', strncat m dst src n = some m' ∧ StringAt m' dst (old.bytes ++ t) ∧
        ∀ x, x < dst + old.bytes.length ∨ dst + old.bytes.length + t.length < x → m' x = m x) := by
  constructor
  · intro ahead
    have whole : (t ++ List.replicate (n - t.length) (0 : UInt8)).length = n := by
      rw [List.length_append, List.length_replicate]
      exact Nat.add_sub_cancel' text.short
    have stored := bytesAt_writeBytes_same (t ++ List.replicate (n - t.length) 0) m dst
    rw [whole] at stored
    rw [strncpy_eq text ahead, stored]
    refine ⟨rfl, fun x outside => ?_, zero_in_padded text.nul_free text.short⟩
    exact writeBytes_frame _ m dst x (by rwa [whole])
  · intro ahead
    refine ⟨_, strncat_eq target old.fits text ahead, ?_, fun x outside => ?_⟩
    · have kept : bytesAt (writeBytes m (dst + old.bytes.length) (t ++ [0])) dst
          old.bytes.length = old.bytes :=
        (bytesAt_congr _ dst (fun x _ high => writeBytes_frame _ _ _ x (.inl high))).trans
          target.bytes
      exact .append kept old.nul_free (stringAt_written m _ text.nul_free)
    · apply writeBytes_frame
      rw [List.length_append, List.length_singleton]
      omega

theorem bounded_copies_cut :
    bytesAt (strncpy twoStrings 16 32 2) 16 2 = ascii "cd" ∧
      (0 : UInt8) ∉ bytesAt (strncpy twoStrings 16 32 2) 16 2 := by
  have text : TextAt twoStrings 32 2 (ascii "cd") := ⟨by decide, by decide, by decide, by decide⟩
  obtain ⟨stored, -, ended⟩ :=
    (bounded_copies twoStrings 16 32 2 _ xy text twoStrings_xy).1 (.inl (by decide))
  exact ⟨stored, fun found => absurd (ended.mp found) (Nat.lt_irrefl 2)⟩

end AxiomeToolchain.Guarantees.StringCopies
