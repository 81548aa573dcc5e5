import AxiomeToolchain.Library.SignedTrace
import AxiomeToolchain.Source.FormatWidth

/-!
# `atoi` and `atol`

sdk/src/stdlib.c:156-200, the same text for int and for long. A string is the
bytes from its pointer to the end of its object; no value is a read past that
end. The additions, multiplications and negations of v are traced.
-/

set_option autoImplicit false

namespace AxiomeToolchain.Source.StdlibNumbers
open AxiomeToolchain.Library.SignedTrace
open AxiomeToolchain.Source.Stdio
open AxiomeToolchain.Source.Format

/-- ' ', '\t', '\n' or '\r'. -/
def isSpace (c : UInt8) : Bool := c = spaceChar || c = 9 || c = 10 || c = 13

def plusChar : UInt8 := 43

def skipSpaces : List UInt8 → Option (List UInt8)
  | [] => none
  | c :: s => if isSpace c then skipSpaces s else some (c :: s)

/-- `neg`, and the string behind the sign. -/
def readSign : List UInt8 → Option (Bool × List UInt8)
  | [] => none
  | c :: s =>
    some (if c = minusChar then (true, s) else if c = plusChar then (false, s) else (false, c :: s))

/-- `while (*s >= '0' && *s <= '9') v = v * 10 + (*s - '0')` -/
def readDigits (type : SignedType) : List UInt8 → Int → Traced Int
  | [], _ => Traced.lift none
  | c :: s, v =>
    if isDigit c then
      (Traced.mul type v 10).bind (fun product =>
        (Traced.add type product (c.toNat - 48)).bind (readDigits type s))
    else Traced.lift (some v)

def parseNumber (type : SignedType) (s : List UInt8) : Traced Int :=
  (Traced.lift (skipSpaces s)).bind (fun s =>
    (Traced.lift (readSign s)).bind (fun (neg, s) =>
      (readDigits type s 0).bind (fun v => if neg then Traced.neg type v else Traced.lift (some v))))

def atoi (s : List UInt8) : Traced Int := parseNumber .int s

def atol (s : List UInt8) : Traced Int := parseNumber .long s

/-! ## The number a string is read as -/

variable {digits : List UInt8} {v : Int}

/-- Whether the sign is '-', and what stands behind it. -/
def splitSign : List UInt8 → Bool × List UInt8
  | [] => (false, [])
  | c :: s => if c = minusChar then (true, s) else if c = plusChar then (false, s) else (false, c :: s)

/-- Spaces, sign and digits read without any bound on the number. -/
def readValue (s : List UInt8) : Int :=
  let signed := splitSign (s.dropWhile isSpace)
  let n := decimalFrom 0 (signed.2.takeWhile isDigit)
  if signed.1 then -n else n

theorem skipSpaces_string (s after : List UInt8) :
    skipSpaces (s ++ 0 :: after) = some (s.dropWhile isSpace ++ 0 :: after) := by
  induction s with
  | nil => rfl
  | cons c s ih =>
    rw [List.cons_append, skipSpaces, List.dropWhile_cons]
    split
    · exact ih
    · rfl

theorem readSign_string (s after : List UInt8) :
    readSign (s ++ 0 :: after) = some ((splitSign s).1, (splitSign s).2 ++ 0 :: after) := by
  cases s with
  | nil => rfl
  | cons c s =>
    rw [List.cons_append, readSign, splitSign]
    split
    · rfl
    · split <;> rfl

/-- The digits are read modulo the type, up to the first other byte. -/
theorem readDigits_string (type : SignedType) (s after : List UInt8) (v : Int) :
    (readDigits type (s ++ 0 :: after) (type.wrap v)).value =
      some (type.wrap (decimalFrom v (s.takeWhile isDigit))) := by
  induction s generalizing v with
  | nil => rfl
  | cons c s ih =>
    rw [List.cons_append, readDigits]
    cases digit : isDigit c with
    | true =>
      rw [if_pos rfl, List.takeWhile_cons_of_pos digit]
      simp only [Traced.bind_value, Traced.mul, Traced.add, Traced.perform_value, Option.bind_some,
        SignedType.wrap_mul, SignedType.wrap_add]
      exact ih (v * 10 + ((c.toNat : Int) - 48))
    | false =>
      rw [if_neg Bool.false_ne_true, List.takeWhile_cons_of_neg (by rw [digit]; decide)]
      rfl

/-- Whatever the string and however long its digits, the result is the number
they spell, reduced to the type. -/
theorem parseNumber_reads (type : SignedType) (s after : List UInt8) :
    (parseNumber type (s ++ 0 :: after)).value = some (type.wrap (readValue s)) := by
  have digits := readDigits_string type (splitSign (s.dropWhile isSpace)).2 after 0
  rw [SignedType.wrap_zero] at digits
  simp only [parseNumber, Traced.bind_value, Traced.lift_value, skipSpaces_string, readSign_string,
    Option.bind_some, digits, readValue]
  split
  · rw [Traced.neg, Traced.perform_value, SignedType.wrap_neg]
  · rfl

/-! ## A numeral and its terminator -/

/-- Every sum on the way is at most the last one. -/
theorem readDigits_safe_iff (type : SignedType) (after : List UInt8)
    (all : ∀ c ∈ digits, isDigit c = true) (nonneg : 0 ≤ v) (small : v ≤ type.max) :
    (readDigits type (digits ++ 0 :: after) v).Safe ↔ decimalFrom v digits ≤ type.max := by
  induction digits generalizing v with
  | nil =>
    have stop : isDigit 0 = false := rfl
    rw [List.nil_append, readDigits, stop]
    exact iff_of_true (Traced.safe_lift _) small
  | cons c rest ih =>
    obtain ⟨digit, later⟩ := List.forall_mem_cons.mp all
    have range := isDigit_toNat digit
    have low := type.min_eq
    have positive := type.max_pos
    have grows : v * 10 + ((c.toNat : Int) - 48) ≤ decimalFrom v (c :: rest) :=
      decimalFrom_ge (by omega) later
    rw [List.cons_append, readDigits, if_pos digit, Traced.mul, Traced.safe_perform_bind_iff]
    constructor
    · intro ⟨product, sum⟩
      rw [type.wrap_of_range product.1 product.2, Traced.add, Traced.safe_perform_bind_iff] at sum
      obtain ⟨bounds, safe⟩ := sum
      rw [type.wrap_of_range bounds.1 bounds.2] at safe
      exact (ih later (by omega) bounds.2).mp safe
    · intro fits
      have product : type.min ≤ v * 10 ∧ v * 10 ≤ type.max := by omega
      have bounds : type.min ≤ v * 10 + ((c.toNat : Int) - 48) ∧
          v * 10 + ((c.toNat : Int) - 48) ≤ type.max := by omega
      refine ⟨product, ?_⟩
      rw [type.wrap_of_range product.1 product.2, Traced.add, Traced.safe_perform_bind_iff]
      refine ⟨bounds, ?_⟩
      rw [type.wrap_of_range bounds.1 bounds.2]
      exact (ih later (by omega) bounds.2).mpr fits

/-! ## The text of a number -/

theorem sign_plain {c : UInt8} (digit : isDigit c = true) :
    isSpace c = false ∧ c ≠ minusChar ∧ c ≠ plusChar := by
  have range := isDigit_toNat digit
  have other (b : UInt8) (outside : b.toNat < 48) : c ≠ b := by
    rintro rfl
    omega
  have space := other spaceChar (by decide)
  have tab := other 9 (by decide)
  have newline := other 10 (by decide)
  have carriage := other 13 (by decide)
  refine ⟨?_, other minusChar (by decide), other plusChar (by decide)⟩
  simp [isSpace, space, tab, newline, carriage]

theorem numeral_cons (v : Nat) :
    ∃ c rest, numeral false 10 v = c :: rest ∧ isDigit c = true := by
  obtain ⟨c, rest, found⟩ := List.exists_cons_of_ne_nil
    (numeral_plain false (by decide : 1 < 10) (by decide) v).1
  exact ⟨c, rest, found, numeral_isDigit v c (found ▸ List.mem_cons_self)⟩

/-- Behind spaces and sign the parser is at the digits. -/
theorem parseNumber_text (type : SignedType) (v : Int) (after : List UInt8) :
    parseNumber type (decimalText v ++ 0 :: after) =
      (readDigits type (numeral false 10 v.natAbs ++ 0 :: after) 0).bind (fun n =>
        if v < 0 then Traced.neg type n else Traced.lift (some n)) := by
  obtain ⟨c, rest, found, digit⟩ := numeral_cons v.natAbs
  obtain ⟨space, minus, plus⟩ := sign_plain digit
  have minus_space : isSpace minusChar = false := by decide
  rw [parseNumber, decimalText]
  by_cases negative : v < 0
  · rw [if_pos negative, List.singleton_append, List.cons_append, skipSpaces, minus_space]
    simp only [negative, if_true, readSign]
    rfl
  · rw [if_neg negative, List.nil_append, found, List.cons_append, skipSpaces, space]
    simp only [negative, if_false, readSign, minus, plus, Bool.false_eq_true, Traced.lift_bind]

theorem readDigits_numeral (type : SignedType) (after : List UInt8) (n : Nat) :
    (readDigits type (numeral false 10 n ++ 0 :: after) 0).value = some (type.wrap n) := by
  have digits := readDigits_string type (numeral false 10 n) after 0
  rwa [SignedType.wrap_zero, List.takeWhile_eq_self_iff.mpr (numeral_isDigit n),
    decimalFrom_numeral] at digits

/-- With wraparound the text of a number is read as the number, whatever overflows. -/
theorem parseNumber_value (type : SignedType) (after : List UInt8) (low : type.min ≤ v)
    (high : v ≤ type.max) :
    (parseNumber type (decimalText v ++ 0 :: after)).value = some v := by
  rw [parseNumber_text, Traced.bind_value, readDigits_numeral, Option.bind_some]
  by_cases negative : v < 0
  · rw [if_pos negative, Traced.neg, Traced.perform_value, SignedType.wrap_neg]
    rw [show -(v.natAbs : Int) = v by omega, type.wrap_of_range low high]
  · rw [if_neg negative, Traced.lift_value]
    rw [show (v.natAbs : Int) = v by omega, type.wrap_of_range low high]

/-- The digits are added up before the sign is applied, so the minimum overflows. -/
theorem parseNumber_safe_iff (type : SignedType) (after : List UInt8) (low : type.min ≤ v)
    (high : v ≤ type.max) :
    (parseNumber type (decimalText v ++ 0 :: after)).Safe ↔ v ≠ type.min := by
  have min := type.min_eq
  have positive := type.max_pos
  have safe := readDigits_safe_iff type after (numeral_isDigit v.natAbs)
    (Int.le_refl 0) (Int.le_of_lt positive)
  rw [decimalFrom_numeral] at safe
  rw [parseNumber_text, Traced.safe_bind_iff, safe, readDigits_numeral]
  simp only [Option.some.injEq, forall_eq']
  constructor
  · intro ⟨fits, _⟩
    omega
  · intro above
    have fits : (v.natAbs : Int) ≤ type.max := by omega
    refine ⟨fits, ?_⟩
    rw [type.wrap_of_range (by omega) fits]
    split
    · rw [Traced.neg, Traced.safe_perform_iff]
      omega
    · exact Traced.safe_lift _

end AxiomeToolchain.Source.StdlibNumbers
