import AxiomeToolchain.Library.Prefixes
import AxiomeToolchain.Source.StdlibNumbers

/-!
# What `atoi` and `atol` read

The C grammar of a number is white space, an optional sign and digits. The
parsers pass over ' ', '\t', '\n' and '\r' only: a number behind a '\v' or '\f'
is read as 0. Both accumulate the same digits, one modulo 2^32 and one modulo
2^64, so that the int of a string is the low half of its long.
-/

set_option autoImplicit false

namespace AxiomeToolchain.Guarantees.NumberGrammar
open AxiomeToolchain.Library.CInt
open AxiomeToolchain.Library.Prefixes
open AxiomeToolchain.Library.SignedTrace
open AxiomeToolchain.Source.Stdio
open AxiomeToolchain.Source.Format
open AxiomeToolchain.Source.StdlibNumbers

/-- The white space of the C locale: ' ', and '\t' to '\r'. -/
def isWhite (c : UInt8) : Bool := c = spaceChar || c = 9 || c = 10 || c = 11 || c = 12 || c = 13

def IsSign (sign : List UInt8) : Prop := sign = [] ∨ sign = [plusChar] ∨ sign = [minusChar]

/-- `p` is white space, an optional sign and digits, worth `v`. -/
structure Spells (p spaces sign digits : List UInt8) (v : Int) : Prop where
  parts : p = spaces ++ (sign ++ digits)
  white : ∀ c ∈ spaces, isWhite c = true
  sign_ok : IsSign sign
  nonempty : digits ≠ []
  digits_ok : ∀ c ∈ digits, isDigit c = true
  value : v = if sign = [minusChar] then -decimalFrom 0 digits else decimalFrom 0 digits

def Number (p : List UInt8) (v : Int) : Prop := ∃ spaces sign digits, Spells p spaces sign digits v

/-- The longest prefix of the string that is a number. -/
def NumberOf (s p : List UInt8) (v : Int) : Prop :=
  LongestPrefix (fun q => ∃ w, Number q w) s p ∧ Number p v

/-- The result is the number at the start of the string if the type has it, and 0
if there is none. -/
structure ParsesC (type : SignedType) (s : CString) (result : Option Int) : Prop where
  number : ∀ p v, NumberOf s.bytes p v → type.min ≤ v → v ≤ type.max → result = some v
  absent : (¬ ∃ p v, p <+: s.bytes ∧ Number p v) → result = some 0

/-- The string starts with a number other than 0 that the type has, and there is a
'\v' or '\f' in its white space. -/
def BehindUnread (type : SignedType) (s : CString) : Prop :=
  ∃ p v, NumberOf s.bytes p v ∧ type.min ≤ v ∧ v ≤ type.max ∧ v ≠ 0 ∧ (11 ∈ p ∨ 12 ∈ p)

variable {s p spaces sign digits rest after : List UInt8} {c : UInt8} {v : Int} {type : SignedType}

/-! ## The parts of a number -/

theorem isWhite_of_isSpace (space : isSpace c = true) : isWhite c = true := by
  simp only [isSpace, isWhite, Bool.or_eq_true, decide_eq_true_eq] at space ⊢
  tauto

theorem isSpace_of_isWhite (white : isWhite c = true) (tab : c ≠ 11) (feed : c ≠ 12) :
    isSpace c = true := by
  simp only [isSpace, isWhite, Bool.or_eq_true, decide_eq_true_eq] at white ⊢
  tauto

theorem sign_or_digit (sign_ok : IsSign sign) (nonempty : digits ≠ [])
    (digits_ok : ∀ c ∈ digits, isDigit c = true) :
    ∀ c ∈ (sign ++ digits).head?, c = plusChar ∨ c = minusChar ∨ isDigit c = true := by
  intro c head
  rcases sign_ok with rfl | rfl | rfl
  · obtain ⟨d, more, rfl⟩ := List.exists_cons_of_ne_nil nonempty
    cases head
    exact .inr (.inr (digits_ok c List.mem_cons_self))
  · cases head
    exact .inl rfl
  · cases head
    exact .inr (.inl rfl)

theorem not_white (kind : c = plusChar ∨ c = minusChar ∨ isDigit c = true) : isWhite c = false := by
  rcases kind with rfl | rfl | digit
  · decide
  · decide
  · have range := isDigit_toNat digit
    have other (b : UInt8) (outside : b.toNat < 48) : c ≠ b := by
      rintro rfl
      omega
    simp [isWhite, other spaceChar (by decide), other 9 (by decide), other 10 (by decide),
      other 11 (by decide), other 12 (by decide), other 13 (by decide)]

/-- A longest number is not followed by a digit. -/
theorem ended_of_longest (number : NumberOf (p ++ rest) p v) :
    ∀ c ∈ rest.head?, isDigit c = false := by
  obtain ⟨longest, spaces, sign, digits, spells⟩ := number
  intro d head
  cases rest with
  | nil => cases head
  | cons c rest =>
    cases head
    by_contra digit
    have longer : Number (p ++ [d]) (if sign = [minusChar] then -decimalFrom 0 (digits ++ [d])
        else decimalFrom 0 (digits ++ [d])) := by
      refine ⟨spaces, sign, digits ++ [d], ?_, spells.white, spells.sign_ok, by simp, ?_, rfl⟩
      · simp only [spells.parts, List.append_assoc]
      · rw [List.forall_mem_append, List.forall_mem_singleton]
        exact ⟨spells.digits_ok, by simpa using digit⟩
    have within : p ++ [d] <+: p ++ d :: rest := ⟨rest, by simp⟩
    have short := longest.longest (p ++ [d]) within ⟨_, longer⟩
    simp at short

/-! ## What the parsers make of them -/

theorem splitSign_number (sign_ok : IsSign sign) (nonempty : digits ≠ [])
    (digits_ok : ∀ c ∈ digits, isDigit c = true) :
    splitSign (sign ++ (digits ++ rest)) = (decide (sign = [minusChar]), digits ++ rest) := by
  rcases sign_ok with rfl | rfl | rfl
  · obtain ⟨d, more, rfl⟩ := List.exists_cons_of_ne_nil nonempty
    obtain ⟨-, minus, plus⟩ := sign_plain (digits_ok d List.mem_cons_self)
    simp [splitSign, minus, plus]
  · rfl
  · rfl

/-- Behind spaces the parsers know, the number is read. -/
theorem readValue_number (spells : Spells p spaces sign digits v)
    (known : ∀ c ∈ spaces, isSpace c = true) (ended : ∀ c ∈ rest.head?, isDigit c = false) :
    readValue (p ++ rest) = v := by
  have skipped : (p ++ rest).dropWhile isSpace = sign ++ (digits ++ rest) := by
    rw [spells.parts, List.append_assoc, List.append_assoc]
    apply dropWhile_run known
    intro c head
    have kind : ∀ c ∈ (sign ++ digits).head?, c = plusChar ∨ c = minusChar ∨ isDigit c = true :=
      sign_or_digit spells.sign_ok spells.nonempty spells.digits_ok
    have first : c ∈ (sign ++ digits).head? := by
      rw [← List.append_assoc] at head
      obtain ⟨d, more, parts⟩ := List.exists_cons_of_ne_nil
        (List.append_ne_nil_of_right_ne_nil sign spells.nonempty)
      rw [parts] at head ⊢
      exact head
    have white := not_white (kind c first)
    by_contra space
    rw [isWhite_of_isSpace (by simpa using space)] at white
    cases white
  rw [readValue, skipped, splitSign_number spells.sign_ok spells.nonempty spells.digits_ok]
  simp only [takeWhile_run spells.digits_ok ended, decide_eq_true_eq]
  exact spells.value.symm

/-- A '\v' or '\f' of a number stands in its white space, and is not skipped. -/
theorem unread_in_spaces (spells : Spells p spaces sign digits v) (unread : 11 ∈ p ∨ 12 ∈ p) :
    ∃ c ∈ spaces, isSpace c = false := by
  have other : ∀ b : UInt8, b = 11 ∨ b = 12 → b ∈ p → b ∈ spaces := by
    intro b kind member
    rw [spells.parts, List.mem_append, List.mem_append] at member
    rcases member with white | sign | digit
    · exact white
    · rcases spells.sign_ok with rfl | rfl | rfl
      · cases sign
      · rw [List.mem_singleton] at sign
        rcases kind with rfl | rfl <;> cases sign
      · rw [List.mem_singleton] at sign
        rcases kind with rfl | rfl <;> cases sign
    · have digit := spells.digits_ok b digit
      rcases kind with rfl | rfl <;> cases digit
  rcases unread with tab | feed
  · exact ⟨11, other 11 (.inl rfl) tab, by decide⟩
  · exact ⟨12, other 12 (.inr rfl) feed, by decide⟩

/-- It stops the parsers before sign and digits. -/
theorem readValue_unread (spells : Spells p spaces sign digits v) (unread : 11 ∈ p ∨ 12 ∈ p) :
    readValue (p ++ rest) = 0 := by
  obtain ⟨b, member, stops⟩ := unread_in_spaces spells unread
  have left : spaces.dropWhile isSpace ≠ [] := by
    intro none
    have space := List.dropWhile_eq_nil_iff.mp none b member
    rw [stops] at space
    cases space
  obtain ⟨c, more, shape⟩ := List.exists_cons_of_ne_nil left
  have white : isWhite c = true :=
    spells.white c ((List.dropWhile_sublist _).subset (shape ▸ List.mem_cons_self))
  have plain : ¬ (c = plusChar ∨ c = minusChar ∨ isDigit c = true) := by
    intro kind
    rw [not_white kind] at white
    cases white
  push Not at plain
  have skipped : (p ++ rest).dropWhile isSpace = c :: (more ++ (sign ++ digits ++ rest)) := by
    rw [spells.parts, List.append_assoc, List.dropWhile_append, shape]
    rfl
  rw [readValue, skipped, splitSign, if_neg plain.2.1, if_neg plain.1]
  simp only [List.takeWhile_cons_of_neg plain.2.2, Bool.false_eq_true, if_false]
  rfl

/-- What stands behind the sign stands behind a sign. -/
theorem splitSign_parts (s : List UInt8) :
    ∃ sign, IsSign sign ∧ s = sign ++ (splitSign s).2 := by
  cases s with
  | nil => exact ⟨[], .inl rfl, rfl⟩
  | cons c s =>
    rw [splitSign]
    split
    · next minus => exact ⟨[minusChar], .inr (.inr rfl), by rw [minus]; rfl⟩
    · split
      · next plus => exact ⟨[plusChar], .inr (.inl rfl), by rw [plus]; rfl⟩
      · exact ⟨[], .inl rfl, rfl⟩

/-- Without a number nothing is added up. -/
theorem readValue_absent (absent : ¬ ∃ p v, p <+: s ∧ Number p v) : readValue s = 0 := by
  obtain ⟨sign, sign_ok, parts⟩ := splitSign_parts (s.dropWhile isSpace)
  have none : (splitSign (s.dropWhile isSpace)).2.takeWhile isDigit = [] := by
    by_contra nonempty
    apply absent
    refine ⟨s.takeWhile isSpace ++ (sign ++ (splitSign (s.dropWhile isSpace)).2.takeWhile isDigit), _,
      ⟨(splitSign (s.dropWhile isSpace)).2.dropWhile isDigit, ?_⟩, s.takeWhile isSpace, sign, _, rfl,
      ?_, sign_ok, nonempty, ?_, rfl⟩
    · rw [List.append_assoc, List.append_assoc, List.takeWhile_append_dropWhile, ← parts,
        List.takeWhile_append_dropWhile]
    · exact fun c member => isWhite_of_isSpace (List.mem_takeWhile_imp member)
    · exact fun c member => List.mem_takeWhile_imp member
  rw [readValue, none]
  simp only [decimalFrom, List.foldl_nil, neg_zero, ite_self]

/-! ## Every string -/

theorem parsesC_iff (type : SignedType) (s : CString) (after : List UInt8) :
    ParsesC type s (parseNumber type (s.terminated ++ after)).value ↔ ¬ BehindUnread type s := by
  rw [CString.terminated_append, parseNumber_reads]
  constructor
  · intro ⟨number, _⟩ ⟨p, v, found, low, high, nonzero, unread⟩
    have result := Option.some.inj (number p v found low high)
    obtain ⟨rest, whole⟩ := found.1.isPrefix
    obtain ⟨spaces, sign, digits, spells⟩ := found.2
    rw [← whole, readValue_unread spells unread, SignedType.wrap_zero] at result
    exact nonzero result.symm
  · intro read
    constructor
    · intro p v found low high
      obtain ⟨rest, whole⟩ := found.1.isPrefix
      have number : NumberOf (p ++ rest) p v := whole ▸ found
      obtain ⟨spaces, sign, digits, spells⟩ := found.2
      by_cases unread : 11 ∈ p ∨ 12 ∈ p
      · have zero : v = 0 := by
          by_contra nonzero
          exact read ⟨p, v, found, low, high, nonzero, unread⟩
        rw [← whole, readValue_unread spells unread, SignedType.wrap_zero, zero]
      · obtain ⟨tab, feed⟩ := not_or.mp unread
        have known : ∀ c ∈ spaces, isSpace c = true := by
          intro c member
          have in_p : c ∈ p := spells.parts ▸ List.mem_append_left _ member
          apply isSpace_of_isWhite (spells.white c member)
          · exact fun same => tab (same ▸ in_p)
          · exact fun same => feed (same ▸ in_p)
        rw [← whole, readValue_number spells known (ended_of_longest number),
          type.wrap_of_range low high]
    · intro absent
      rw [readValue_absent absent, SignedType.wrap_zero]

/-- For every string: atol and atoi read the number of the C grammar unless it is
not 0 and has a '\v' or '\f' in front of it. -/
theorem grammar_iff (s : CString) (after : List UInt8) :
    (ParsesC .long s (atol (s.terminated ++ after)).value ↔ ¬ BehindUnread .long s) ∧
      (ParsesC .int s (atoi (s.terminated ++ after)).value ↔ ¬ BehindUnread .int s) :=
  ⟨parsesC_iff .long s after, parsesC_iff .int s after⟩

/-- A '\v' and a '5'. -/
def tabbedFive : CString := ⟨[11, 53], by decide, by decide⟩

theorem tabbedFive_number : NumberOf tabbedFive.bytes tabbedFive.bytes 5 := by
  have number : Number tabbedFive.bytes 5 :=
    ⟨[11], [], [53], rfl, List.forall_mem_singleton.mpr rfl, .inl rfl, by decide,
      List.forall_mem_singleton.mpr rfl, rfl⟩
  exact ⟨⟨List.prefix_refl _, ⟨5, number⟩, fun q within _ => within.length_le⟩, number⟩

/-- A 5 behind a '\v' is read as 0. -/
theorem number_unread : (atol (tabbedFive.terminated ++ [])).value = some 0 ∧
    (atoi (tabbedFive.terminated ++ [])).value = some 0 ∧
    NumberOf tabbedFive.bytes tabbedFive.bytes 5 ∧
    ¬ ∀ (s : CString) (after : List UInt8), ParsesC .long s (atol (s.terminated ++ after)).value := by
  have zero : (atol (tabbedFive.terminated ++ [])).value = some 0 := by decide
  refine ⟨zero, by decide, tabbedFive_number, fun all => ?_⟩
  have five := (all tabbedFive []).number _ 5 tabbedFive_number (by simp) (by simp)
  rw [zero] at five
  cases five

/-! ## Both functions on one string -/

/-- The low 32 bits, read as signed. -/
def lowInt (long : Int) : Int := ((BitVec.ofInt 64 long).setWidth 32).toInt

theorem lowInt_eq (x : Int) : lowInt x = SignedType.int.wrap x := by
  rw [lowInt, BitVec.toInt_setWidth, BitVec.toNat_ofInt]
  simp only [SignedType.wrap, wrapInt, Int.bmod_def]
  omega

/-- An int that overflowed in a long on the way is the same int. -/
theorem wrap_long_int (x : Int) :
    SignedType.int.wrap (SignedType.long.wrap x) = SignedType.int.wrap x := by
  have congruent := SignedType.long.wrap_modEq x
  have divides : SignedType.int.modulus ∣ SignedType.long.modulus := by decide
  exact (SignedType.int.wrap_eq_iff _ _).mpr (congruent.of_dvd divides)

/-- For every string: atoi is the low half of atol. -/
theorem atoi_truncates (s : CString) (after : List UInt8) :
    ∃ long, (atol (s.terminated ++ after)).value = some long ∧
      (atoi (s.terminated ++ after)).value = some (lowInt long) := by
  rw [CString.terminated_append]
  refine ⟨_, parseNumber_reads .long s.bytes after, ?_⟩
  rw [lowInt_eq, wrap_long_int]
  exact parseNumber_reads .int s.bytes after

end AxiomeToolchain.Guarantees.NumberGrammar
