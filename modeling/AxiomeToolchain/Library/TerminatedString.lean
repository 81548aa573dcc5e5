import AxiomeToolchain.Library.ByteMemory

/-!
# Zero-terminated strings in byte memory

`StringAt m p s`: the bytes of `s`, none of them zero, stand from `p` on with a
zero behind them. A memory holds at most one string at an address. `content`
is the string a buffer of known bytes holds.
-/

set_option autoImplicit false

namespace AxiomeToolchain.Library.TerminatedString
open AxiomeToolchain.Library.ByteMemory

structure StringAt (m : Memory) (p : Nat) (s : List UInt8) : Prop where
  bytes : bytesAt m p s.length = s
  ends : m (p + s.length) = 0
  nul_free : (0 : UInt8) ∉ s

variable {m m' : Memory} {p n i : Nat} {c : UInt8} {s t data : List UInt8}

theorem StringAt.get (held : StringAt m p s) (inside : i < s.length) : s[i]? = some (m (p + i)) := by
  rw [← bytesAt_get m p s.length i inside, held.bytes]

theorem StringAt.nonzero (held : StringAt m p s) (inside : i < s.length) : m (p + i) ≠ 0 := by
  intro zero
  have member := List.mem_of_getElem? (held.get inside)
  rw [zero] at member
  exact held.nul_free member

theorem StringAt.nil (zero : m p = 0) : StringAt m p [] where
  bytes := rfl
  ends := zero
  nul_free := List.not_mem_nil

theorem StringAt.cons (nonzero : m p ≠ 0) (rest : StringAt m (p + 1) s) :
    StringAt m p (m p :: s) where
  bytes := by rw [List.length_cons, bytesAt, rest.bytes]
  ends := by
    rw [← rest.ends, List.length_cons]
    congr 1
    omega
  nul_free := by
    rw [List.mem_cons, not_or]
    exact ⟨Ne.symm nonzero, rest.nul_free⟩

theorem StringAt.head (held : StringAt m p (c :: s)) : m p = c := by
  have first := held.get (i := 0) (Nat.zero_lt_succ _)
  exact (Option.some.inj first).symm

theorem StringAt.head_ne (held : StringAt m p (c :: s)) : c ≠ 0 := by
  rw [← held.head]
  exact held.nonzero (i := 0) (Nat.zero_lt_succ _)

theorem StringAt.tail (held : StringAt m p (c :: s)) : StringAt m (p + 1) s where
  bytes := (List.cons.inj held.bytes).2
  ends := by
    rw [← held.ends, List.length_cons]
    congr 1
    omega
  nul_free := fun member => held.nul_free (List.mem_cons_of_mem c member)

theorem StringAt.suffix (held : StringAt m p (s ++ t)) : StringAt m (p + s.length) t := by
  induction s generalizing p with
  | nil => exact held
  | cons c s ih =>
    rw [List.length_cons, show p + (s.length + 1) = p + 1 + s.length by omega]
    exact ih held.tail

/-- A string depends on its bytes and its terminator only. -/
theorem StringAt.congr (held : StringAt m p s)
    (same : ∀ x, p ≤ x → x ≤ p + s.length → m' x = m x) : StringAt m' p s where
  bytes := (bytesAt_congr s.length p (fun x low high => same x low (by omega))).trans held.bytes
  ends := (same _ (Nat.le_add_right _ _) (Nat.le_refl _)).trans held.ends
  nul_free := held.nul_free

theorem StringAt.unique (first : StringAt m p s) (other : StringAt m p t) : s = t := by
  have same : s.length = t.length := by
    rcases Nat.lt_trichotomy s.length t.length with less | equal | more
    · exact absurd first.ends (other.nonzero less)
    · exact equal
    · exact absurd other.ends (first.nonzero more)
  rw [← first.bytes, ← other.bytes, same]

/-- The bytes and the terminator, as one block. -/
theorem stringAt_iff (nul_free : (0 : UInt8) ∉ s) :
    StringAt m p s ↔ bytesAt m p (s.length + 1) = s ++ [0] := by
  rw [bytesAt_add]
  constructor
  · intro held
    rw [held.bytes, bytesAt, held.ends, bytesAt]
  · intro block
    obtain ⟨bytes, ends⟩ := List.append_inj block (bytesAt_length m p s.length)
    exact ⟨bytes, (List.cons.inj ends).1, nul_free⟩

theorem StringAt.block (held : StringAt m p s) : bytesAt m p (s.length + 1) = s ++ [0] :=
  (stringAt_iff held.nul_free).mp held

/-- A string written with its terminator is there. -/
theorem stringAt_written (m : Memory) (p : Nat) (nul_free : (0 : UInt8) ∉ s) :
    StringAt (writeBytes m p (s ++ [0])) p s := by
  rw [stringAt_iff nul_free, show s.length + 1 = (s ++ [0]).length by simp]
  exact bytesAt_writeBytes_same _ m p

/-- Two strings one behind the other, the first without its terminator. -/
theorem StringAt.append (first : bytesAt m p s.length = s) (nul_free : (0 : UInt8) ∉ s)
    (second : StringAt m (p + s.length) t) : StringAt m p (s ++ t) where
  bytes := by rw [List.length_append, bytesAt_add, first, second.bytes]
  ends := by rw [List.length_append, ← Nat.add_assoc, second.ends]
  nul_free := by
    rw [List.mem_append, not_or]
    exact ⟨nul_free, second.nul_free⟩

/-! ## The string a bounded reader sees -/

/-- The text from `p` on that a reader of at most `n` bytes takes: it ends before
a zero or after `n` bytes. -/
structure TextAt (m : Memory) (p n : Nat) (t : List UInt8) : Prop where
  bytes : bytesAt m p t.length = t
  short : t.length ≤ n
  ends : t.length < n → m (p + t.length) = 0
  nul_free : (0 : UInt8) ∉ t

theorem TextAt.tail (held : TextAt m p (n + 1) (c :: t)) : TextAt m (p + 1) n t where
  bytes := (List.cons.inj held.bytes).2
  short := Nat.le_of_succ_le_succ held.short
  ends := by
    intro less
    rw [← held.ends (Nat.succ_lt_succ less), List.length_cons]
    congr 1
    omega
  nul_free := fun member => held.nul_free (List.mem_cons_of_mem c member)

theorem TextAt.congr (held : TextAt m p n t)
    (same : ∀ x, p ≤ x → x < p + min n (t.length + 1) → m' x = m x) : TextAt m' p n t where
  bytes := by
    have short := held.short
    exact (bytesAt_congr _ p (fun x low high => same x low (by omega))).trans held.bytes
  short := held.short
  ends less := (same _ (Nat.le_add_right _ _) (by omega)).trans (held.ends less)
  nul_free := held.nul_free

theorem StringAt.text (held : StringAt m p s) (n : Nat) : TextAt m p n (s.take n) where
  bytes := by
    rw [List.length_take, ← bytesAt_take m p s.length _ (Nat.min_le_right n s.length), held.bytes]
    rcases Nat.le_total n s.length with cut | whole
    · rw [Nat.min_eq_left cut]
    · rw [Nat.min_eq_right whole, List.take_length, List.take_of_length_le whole]
  short := by
    rw [List.length_take]
    exact Nat.min_le_left _ _
  ends less := by
    rw [List.length_take] at less ⊢
    rw [Nat.min_eq_right (by omega), held.ends]
  nul_free := fun member => held.nul_free (List.mem_of_mem_take member)

/-! ## The string in a buffer -/

/-- The bytes before the first zero. -/
def content (data : List UInt8) : List UInt8 := data.takeWhile (· ≠ 0)

/-- A buffer with a zero in it holds its content as a string. -/
theorem content_split (ended : (0 : UInt8) ∈ data) :
    ∃ after, data = content data ++ 0 :: after := by
  induction data with
  | nil => simp at ended
  | cons c data ih =>
    by_cases zero : c = 0
    · subst zero
      exact ⟨data, by simp [content]⟩
    · obtain ⟨after, split⟩ := ih ((List.mem_cons.mp ended).resolve_left (Ne.symm zero))
      refine ⟨after, ?_⟩
      have kept : content (c :: data) = c :: content data :=
        List.takeWhile_cons_of_pos (by simpa using zero)
      rw [kept, List.cons_append, ← split]

theorem content_length_lt (ended : (0 : UInt8) ∈ data) : (content data).length < data.length := by
  obtain ⟨after, split⟩ := content_split ended
  have lengths := congrArg List.length split
  rw [List.length_append, List.length_cons] at lengths
  omega

end AxiomeToolchain.Library.TerminatedString
