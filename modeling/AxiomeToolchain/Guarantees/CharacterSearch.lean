import AxiomeToolchain.Source.StringScan

/-!
# strchr, strrchr and memchr

memchr converts its character before it searches. strchr and strrchr compare
with the converted character inside the string, but decide on the terminator by
the int they were given. An int that converts to NUL without being 0 is found by
memchr only.
-/

set_option autoImplicit false

namespace AxiomeToolchain.Guarantees.CharacterSearch
open AxiomeToolchain.Library.LinearSearch
open AxiomeToolchain.Source.Stdio
open AxiomeToolchain.Source.StringScan

/-- Byte `i` of the string, its terminator included, is the converted character. -/
def Matches (s : CString) (c : Int) (i : Nat) : Prop := s.terminated[i]? = some (UInt8.ofInt c)

/-- strchr and memchr return the first match, strrchr the last one. -/
structure SearchesAgree (s : CString) (after : List UInt8) (c : Int) : Prop where
  first : ∃ r, strchr (s.terminated ++ after) c = some r ∧
    memchr (s.terminated ++ after) c (s.bytes.length + 1) = some r ∧ First (Matches s c) r
  last : ∃ r, strrchr (s.terminated ++ after) c = some r ∧ Last (Matches s c) r

variable {s : CString} {c : Int} {i : Nat}

theorem ofInt_eq_zero_iff (c : Int) : UInt8.ofInt c = 0 ↔ c % 256 = 0 := by
  have zero : (0 : UInt8).toNat = 0 := rfl
  rw [← UInt8.toNat_inj, UInt8.ofInt, UInt8.toNat_ofNat', zero]
  omega

theorem matches_iff (s : CString) (c : Int) (i : Nat) :
    Matches s c i ↔ s.bytes[i]? = some (UInt8.ofInt c) ∨ i = s.bytes.length ∧ c % 256 = 0 := by
  rw [Matches, CString.terminated, ← ofInt_eq_zero_iff]
  rcases Nat.lt_trichotomy i s.bytes.length with inside | rfl | outside
  · have not_last : i ≠ s.bytes.length := Nat.ne_of_lt inside
    simp [List.getElem?_append_left inside, not_last]
  · simp [eq_comm]
  · have not_last : i ≠ s.bytes.length := Nat.ne_of_gt outside
    have nothing : s.bytes[i]? = none := List.getElem?_eq_none (Nat.le_of_lt outside)
    have past : (s.bytes ++ [0])[i]? = none := by
      apply List.getElem?_eq_none
      simp only [List.length_append, List.length_singleton]
      omega
    simp [nothing, past, not_last]

theorem memchr_matches (s : CString) (after : List UInt8) (c : Int) :
    ∃ r, memchr (s.terminated ++ after) c (s.bytes.length + 1) = some r ∧ First (Matches s c) r := by
  have whole : s.bytes.length + 1 = s.terminated.length := by simp [CString.terminated]
  obtain ⟨r, run, first⟩ := memchr_first c after s.terminated.length (Nat.le_refl _)
  rw [whole]
  refine ⟨r, run, first.congr (fun i => ⟨And.right, fun found => ⟨?_, found⟩⟩)⟩
  exact (List.getElem?_eq_some_iff.mp found).1

theorem strchr_string (s : CString) (after : List UInt8) (c : Int) :
    ∃ r, strchr (s.terminated ++ after) c = some r ∧
      First (fun i => s.bytes[i]? = some (UInt8.ofInt c) ∨ i = s.bytes.length ∧ c = 0) r := by
  rw [CString.terminated_append]
  exact strchr_first c after s.nul_free

theorem strrchr_string (s : CString) (after : List UInt8) (c : Int) :
    ∃ r, strrchr (s.terminated ++ after) c = some r ∧
      if c = 0 then r = some s.bytes.length
      else Last (fun i => s.bytes[i]? = some (UInt8.ofInt c)) r := by
  rw [CString.terminated_append]
  exact strrchrLoop_last c after [] s.nul_free .start

/-- Where the int and its conversion are NUL together, the terminator is found
as any other byte. -/
theorem strchr_matches (plain : c = 0 ∨ c % 256 ≠ 0) (after : List UInt8) :
    ∃ r, strchr (s.terminated ++ after) c = some r ∧ First (Matches s c) r := by
  obtain ⟨r, run, first⟩ := strchr_string s after c
  refine ⟨r, run, first.congr (fun i => ?_)⟩
  rw [matches_iff]
  have same : c = 0 ↔ c % 256 = 0 := by omega
  rw [same]

theorem strrchr_matches (plain : c = 0 ∨ c % 256 ≠ 0) (after : List UInt8) :
    ∃ r, strrchr (s.terminated ++ after) c = some r ∧ Last (Matches s c) r := by
  obtain ⟨r, run, last⟩ := strrchr_string s after c
  refine ⟨r, run, ?_⟩
  by_cases zero : c = 0
  · rw [if_pos zero] at last
    subst zero last
    constructor
    · rw [matches_iff]
      exact .inr ⟨rfl, rfl⟩
    · intro j later found
      have inside := (List.getElem?_eq_some_iff.mp found).1
      rw [CString.terminated, List.length_append, List.length_singleton] at inside
      omega
  · rw [if_neg zero] at last
    have not_nul : c % 256 ≠ 0 := plain.resolve_left zero
    refine last.congr (fun i => ?_)
    rw [matches_iff]
    simp [not_nul]

/-- strchr does not see the terminator as an int that only converts to NUL. -/
theorem strchr_misses (nonzero : c ≠ 0) (nul : c % 256 = 0) (after : List UInt8) :
    strchr (s.terminated ++ after) c = some none := by
  obtain ⟨r, run, first⟩ := strchr_string s after c
  rw [run, first.eq_iff.mpr]
  intro i found
  rw [(ofInt_eq_zero_iff c).mpr nul] at found
  rcases found with inside | ended
  · exact s.nul_free (List.mem_of_getElem? inside)
  · exact nonzero ended.2

/-- For every string and every int: the searches agree on the converted
character exactly if the int is 0 or does not convert to NUL. -/
theorem searches_agree_iff (s : CString) (after : List UInt8) (c : Int) :
    SearchesAgree s after c ↔ c = 0 ∨ c % 256 ≠ 0 := by
  constructor
  · intro agree
    by_contra odd
    rw [not_or, not_not] at odd
    obtain ⟨r, run, -, first⟩ := agree.first
    rw [strchr_misses odd.1 odd.2] at run
    cases run
    exact first s.bytes.length ((matches_iff s c _).mpr (.inr ⟨rfl, odd.2⟩))
  · intro plain
    obtain ⟨r, found, first⟩ := strchr_matches plain after
    obtain ⟨r', found', first'⟩ := memchr_matches s after c
    cases first.unique first'
    exact ⟨⟨r, found, found', first⟩, strrchr_matches plain after⟩

/-- strchr("", 256) is NULL where memchr finds the terminator, at index 0. -/
theorem searches_disagree : strchr (CString.empty.terminated ++ []) 256 = some none ∧
    strrchr (CString.empty.terminated ++ []) 256 = some none ∧
    memchr (CString.empty.terminated ++ []) 256 1 = some (some 0) ∧
    ¬ ∀ (s : CString) (after : List UInt8) (c : Int), -2147483648 ≤ c → c ≤ 2147483647 →
      SearchesAgree s after c := by
  have missed : strchr (CString.empty.terminated ++ []) 256 = some none := by decide
  have hit : memchr (CString.empty.terminated ++ []) 256 1 = some (some 0) := by decide
  refine ⟨missed, by decide, hit, fun all => ?_⟩
  obtain ⟨r, found, found', -⟩ := (all CString.empty [] 256 (by decide) (by decide)).first
  have same := Option.some.inj (missed.symm.trans found)
  rw [← same] at found'
  exact absurd (hit.symm.trans found') (by decide)

end AxiomeToolchain.Guarantees.CharacterSearch
