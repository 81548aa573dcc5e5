import AxiomeToolchain.Library.ByteOrder
import AxiomeToolchain.Library.LinearSearch
import AxiomeToolchain.Source.Stdio

/-!
# Comparing and searching strings

sdk/src/string.c:39-61,110-174. A pointer is the bytes from it to the end of its
object, and the outer `none` is a read past that end. A pointer into the string
searched is its offset, the inner `none` NULL. Two chars are equal exactly if
their bytes are, so the signed chars of the source stand as bytes here.
-/

set_option autoImplicit false

namespace AxiomeToolchain.Source.StringScan
open AxiomeToolchain.Library.ByteOrder
open AxiomeToolchain.Library.LinearSearch
open AxiomeToolchain.Source.Stdio (CString)

/-! ## Comparison -/

def memcmp : List UInt8 → List UInt8 → Nat → Option Int
  | _, _, 0 => some 0
  | c :: a, d :: b, n + 1 => if c ≠ d then some (c.toNat - d.toNat) else memcmp a b n
  | _, _, _ + 1 => none

def strcmp : List UInt8 → List UInt8 → Option Int
  | c :: a, d :: b => if c ≠ 0 ∧ c = d then strcmp a b else some (c.toNat - d.toNat)
  | _, _ => none

def strncmp : List UInt8 → List UInt8 → Nat → Option Int
  | _, _, 0 => some 0
  | c :: a, d :: b, n + 1 =>
    if c ≠ d then some (c.toNat - d.toNat) else if c = 0 then some 0 else strncmp a b n
  | _, _, _ + 1 => none

/-! ## Search for a character -/

def memchr : List UInt8 → Int → Nat → Option (Option Nat)
  | _, _, 0 => some none
  | b :: s, c, n + 1 =>
    if b = UInt8.ofInt c then some (some 0) else (memchr s c n).map (Option.map (· + 1))
  | [], _, _ + 1 => none

/-- The last test is on the `int`, the others on the char it converts to. -/
def strchr : List UInt8 → Int → Option (Option Nat)
  | [], _ => none
  | b :: s, c =>
    if b = 0 then some (if c = 0 then some 0 else none)
    else if b = UInt8.ofInt c then some (some 0)
    else (strchr s c).map (Option.map (· + 1))

/-- `while (*s)` with `s` at the offset `i`. -/
def strrchrLoop (c : Int) : List UInt8 → Nat → Option Nat → Option (Option Nat)
  | [], _, _ => none
  | b :: s, i, last =>
    if b = 0 then some (if c = 0 then some i else last)
    else strrchrLoop c s (i + 1) (if b = UInt8.ofInt c then some i else last)

def strrchr (s : List UInt8) (c : Int) : Option (Option Nat) := strrchrLoop c s 0 none

/-! ## Search for a string -/

/-- `while (*hn && *n && *hn == *n)`, and the test `!*n` behind it. -/
def startsWith : List UInt8 → List UInt8 → Option Bool
  | c :: hn, d :: n => if c ≠ 0 ∧ d ≠ 0 ∧ c = d then startsWith hn n else some (d = 0)
  | _, _ => none

/-- `for (h = haystack; *h; h++)` -/
def strstrLoop (needle : List UInt8) : List UInt8 → Option (Option Nat)
  | [] => none
  | c :: h =>
    if c = 0 then some none
    else (startsWith (c :: h) needle).bind (fun found =>
      if found then some (some 0) else (strstrLoop needle h).map (Option.map (· + 1)))

def strstr (haystack needle : List UInt8) : Option (Option Nat) :=
  match needle with
  | [] => none
  | d :: _ => if d = 0 then some (some 0) else strstrLoop needle haystack

/-! ## The comparisons as one difference -/

variable {a b s after after' : List UInt8}

theorem strcmp_eq (after after' : List UInt8) (a_free : (0 : UInt8) ∉ a) (b_free : (0 : UInt8) ∉ b) :
    strcmp (a ++ 0 :: after) (b ++ 0 :: after') = some (difference a b) := by
  induction a generalizing b with
  | nil =>
    cases b with
    | nil => rfl
    | cons d b => simp [strcmp, difference]
  | cons c a ih =>
    obtain ⟨nonzero, a_free⟩ := nul_free_cons a_free
    cases b with
    | nil => simp [strcmp, difference, nonzero]
    | cons d b =>
      obtain ⟨-, b_free⟩ := nul_free_cons b_free
      rw [List.cons_append, List.cons_append, strcmp, difference]
      by_cases same : c = d
      · rw [if_pos ⟨nonzero, same⟩, if_pos same]
        exact ih a_free b_free
      · rw [if_neg (fun both => same both.2), if_neg same]

theorem strncmp_eq (after after' : List UInt8) (n : Nat) (a_free : (0 : UInt8) ∉ a)
    (b_free : (0 : UInt8) ∉ b) :
    strncmp (a ++ 0 :: after) (b ++ 0 :: after') n = some (difference (a.take n) (b.take n)) := by
  induction n generalizing a b with
  | zero => simp [strncmp, difference]
  | succ n ih =>
    cases a with
    | nil =>
      cases b with
      | nil => simp [strncmp, difference]
      | cons d b =>
        obtain ⟨other_nonzero, b_free⟩ := nul_free_cons b_free
        simp [strncmp, difference, other_nonzero.symm]
    | cons c a =>
      obtain ⟨nonzero, a_free⟩ := nul_free_cons a_free
      cases b with
      | nil => simp [strncmp, difference, nonzero]
      | cons d b =>
        obtain ⟨-, b_free⟩ := nul_free_cons b_free
        rw [List.cons_append, List.cons_append, strncmp, List.take_succ_cons, List.take_succ_cons,
          difference]
        by_cases same : c = d
        · rw [if_neg (not_not.mpr same), if_neg nonzero, if_pos same]
          exact ih a_free b_free
        · rw [if_pos same, if_neg same]

/-- One byte more than the shorter string: its terminator decides. -/
theorem memcmp_eq (after after' : List UInt8) (a_free : (0 : UInt8) ∉ a) (b_free : (0 : UInt8) ∉ b) :
    memcmp (a ++ 0 :: after) (b ++ 0 :: after') (min a.length b.length + 1) =
      some (difference a b) := by
  induction a generalizing b with
  | nil =>
    cases b with
    | nil => simp [memcmp, difference]
    | cons d b =>
      obtain ⟨other_nonzero, b_free⟩ := nul_free_cons b_free
      simp [memcmp, difference, other_nonzero.symm]
  | cons c a ih =>
    obtain ⟨nonzero, a_free⟩ := nul_free_cons a_free
    cases b with
    | nil => simp [memcmp, difference, nonzero]
    | cons d b =>
      obtain ⟨-, b_free⟩ := nul_free_cons b_free
      rw [List.cons_append, List.cons_append, memcmp, difference, List.length_cons, List.length_cons,
        Nat.succ_min_succ]
      by_cases same : c = d
      · rw [if_neg (not_not.mpr same), if_pos same]
        exact ih a_free b_free
      · rw [if_pos same, if_neg same]

/-! ## The searches -/

theorem memchr_first (c : Int) (after : List UInt8) (n : Nat) (whole : n ≤ s.length) :
    ∃ r, memchr (s ++ after) c n = some r ∧
      First (fun i => i < n ∧ s[i]? = some (UInt8.ofInt c)) r := by
  induction n generalizing s with
  | zero => exact ⟨none, by rw [memchr], fun i both => absurd both.1 (Nat.not_lt_zero i)⟩
  | succ n ih =>
    cases s with
    | nil => exact absurd whole (Nat.not_succ_le_zero n)
    | cons b s =>
      rw [List.cons_append, memchr]
      by_cases hit : b = UInt8.ofInt c
      · rw [if_pos hit]
        exact ⟨some 0, rfl, .here ⟨Nat.zero_lt_succ n, congrArg some hit⟩⟩
      · obtain ⟨r, found, first⟩ := ih (Nat.le_of_succ_le_succ whole)
        rw [if_neg hit, found]
        refine ⟨r.map (· + 1), rfl, .later (fun both => hit (Option.some.inj both.2)) ?_⟩
        exact first.congr (fun i => by simp)

/-- Where the terminator does not match, strchr passes over it. -/
theorem strchr_first (c : Int) (after : List UInt8) (s_free : (0 : UInt8) ∉ s) :
    ∃ r, strchr (s ++ 0 :: after) c = some r ∧
      First (fun i => s[i]? = some (UInt8.ofInt c) ∨ i = s.length ∧ c = 0) r := by
  induction s with
  | nil =>
    rw [List.nil_append, strchr, if_pos rfl]
    refine ⟨_, rfl, ?_⟩
    by_cases zero : c = 0
    · rw [if_pos zero]
      exact .here (.inr ⟨rfl, zero⟩)
    · rw [if_neg zero]
      exact fun i => by simp [zero]
  | cons b s ih =>
    obtain ⟨nonzero, s_free⟩ := nul_free_cons s_free
    rw [List.cons_append, strchr, if_neg nonzero]
    by_cases hit : b = UInt8.ofInt c
    · rw [if_pos hit]
      exact ⟨some 0, rfl, .here (.inl (congrArg some hit))⟩
    · obtain ⟨r, found, first⟩ := ih s_free
      rw [if_neg hit, found]
      refine ⟨r.map (· + 1), rfl, .later (by simp [hit]) ?_⟩
      exact first.congr (fun i => by simp)

theorem strrchrLoop_last (c : Int) (after : List UInt8) (seen : List UInt8) (s_free : (0 : UInt8) ∉ s)
    {last : Option Nat}
    (sofar : Last (fun i => i < seen.length ∧ (seen ++ s)[i]? = some (UInt8.ofInt c)) last) :
    ∃ r, strrchrLoop c (s ++ 0 :: after) seen.length last = some r ∧
      if c = 0 then r = some (seen ++ s).length
      else Last (fun i => (seen ++ s)[i]? = some (UInt8.ofInt c)) r := by
  induction s generalizing seen last with
  | nil =>
    rw [List.nil_append, strrchrLoop, if_pos rfl]
    refine ⟨_, rfl, ?_⟩
    by_cases zero : c = 0
    · rw [if_pos zero, if_pos zero, List.append_nil]
    · rw [if_neg zero, if_neg zero]
      apply sofar.finish
      intro i found
      rw [List.append_nil] at found
      exact (List.getElem?_eq_some_iff.mp found).1
  | cons b s ih =>
    obtain ⟨nonzero, s_free⟩ := nul_free_cons s_free
    have here : (seen ++ b :: s)[seen.length]? = some b := by simp
    have assoc : seen ++ b :: s = seen ++ [b] ++ s := by simp
    have next : (seen ++ [b]).length = seen.length + 1 := by simp
    rw [List.cons_append, strrchrLoop, if_neg nonzero, assoc, ← next]
    apply ih (seen ++ [b]) s_free
    rw [next, ← assoc]
    by_cases hit : b = UInt8.ofInt c
    · rw [if_pos hit]
      exact .hit (hit ▸ here)
    · rw [if_neg hit]
      apply sofar.miss
      rw [here]
      exact fun same => hit (Option.some.inj same)

theorem startsWith_eq (after after' : List UInt8) (a_free : (0 : UInt8) ∉ a) (b_free : (0 : UInt8) ∉ b) :
    startsWith (a ++ 0 :: after) (b ++ 0 :: after') = some (b.isPrefixOf a) := by
  induction a generalizing b with
  | nil =>
    cases b with
    | nil => rfl
    | cons d b =>
      obtain ⟨other_nonzero, b_free⟩ := nul_free_cons b_free
      simp [startsWith, other_nonzero]
  | cons c a ih =>
    obtain ⟨nonzero, a_free⟩ := nul_free_cons a_free
    cases b with
    | nil => simp [startsWith]
    | cons d b =>
      obtain ⟨other_nonzero, b_free⟩ := nul_free_cons b_free
      rw [List.cons_append, List.cons_append, startsWith, List.isPrefixOf]
      by_cases same : c = d
      · rw [if_pos ⟨nonzero, other_nonzero, same⟩, ih a_free b_free, same,
          beq_self_eq_true, Bool.true_and]
      · have other : (d == c) = false := beq_eq_false_iff_ne.mpr (Ne.symm same)
        rw [if_neg (fun all => same all.2.2), other, Bool.false_and, decide_eq_false other_nonzero]

/-- A needle with a first character is looked for up to the terminator. -/
theorem strstrLoop_first (after after' : List UInt8) (a_free : (0 : UInt8) ∉ a)
    (b_free : (0 : UInt8) ∉ b) (nonempty : b ≠ []) :
    ∃ r, strstrLoop (b ++ 0 :: after') (a ++ 0 :: after) = some r ∧
      First (fun i => i ≤ a.length ∧ b <+: a.drop i) r := by
  induction a with
  | nil =>
    refine ⟨none, rfl, fun i ⟨_, found⟩ => nonempty ?_⟩
    rw [List.drop_nil] at found
    exact List.prefix_nil.mp found
  | cons c a ih =>
    have start := startsWith_eq after after' a_free b_free
    obtain ⟨nonzero, a_free⟩ := nul_free_cons a_free
    rw [List.cons_append] at start ⊢
    rw [strstrLoop, if_neg nonzero, start, Option.bind_some]
    by_cases here : b <+: c :: a
    · rw [if_pos (List.isPrefixOf_iff_prefix.mpr here)]
      exact ⟨some 0, rfl, .here ⟨Nat.zero_le _, here⟩⟩
    · obtain ⟨r, found, first⟩ := ih a_free
      rw [if_neg (fun test => here (List.isPrefixOf_iff_prefix.mp test)), found]
      refine ⟨r.map (· + 1), rfl, .later (fun both => here both.2) ?_⟩
      exact first.congr (fun i => by simp)

end AxiomeToolchain.Source.StringScan
