import AxiomeToolchain.Source.FormatText

/-!
# Numerals read back

A decimal numeral has digits only, no leading zero unless it is 0, and the
number it is read as, digit by digit from the left, is the one it was made from.
-/

set_option autoImplicit false

namespace AxiomeToolchain.Source.Format
open AxiomeToolchain.Library.CInt
open AxiomeToolchain.Source.Stdio

variable {v base : Nat}

/-- The last digit comes behind the numeral of the rest. -/
theorem numeral_step (upper : Bool) (two : 1 < base) (v : Nat) :
    numeral upper base v =
      if v < base then [digitOf upper v]
      else numeral upper base (v / base) ++ [digitOf upper (v % base)] := by
  split
  · next small =>
    by_cases zero : v = 0
    · subst zero
      cases upper <;> rfl
    · rw [numeral, if_neg zero, Nat.digits_of_lt base v zero small]
      rfl
  · next large =>
    have nonzero : v ≠ 0 := by omega
    have more : v / base ≠ 0 := by
      rw [Nat.div_ne_zero_iff]
      omega
    rw [numeral, if_neg nonzero, numeral, if_neg more,
      Nat.digits_def' two (Nat.pos_of_ne_zero nonzero), List.map_cons, List.reverse_cons]

theorem digitOf_decimal (i : Nat) (small : i < 10) :
    isDigit (digitOf false i) = true ∧ ((digitOf false i).toNat : Int) - 48 = i ∧
      (digitOf false i = zeroChar ↔ i = 0) := by
  interval_cases i <;> decide

theorem isDigit_toNat {c : UInt8} (digit : isDigit c = true) : 48 ≤ c.toNat ∧ c.toNat ≤ 57 := by
  simp only [isDigit, Bool.and_eq_true, decide_eq_true_eq] at digit
  exact ⟨UInt8.le_iff_toNat_le.mp digit.1, UInt8.le_iff_toNat_le.mp digit.2⟩

theorem decimalFrom_append (start : Int) (xs ys : List UInt8) :
    decimalFrom start (xs ++ ys) = decimalFrom (decimalFrom start xs) ys := List.foldl_append

theorem numeral_isDigit (v : Nat) : ∀ c ∈ numeral false 10 v, isDigit c = true := by
  induction v using Nat.strongRecOn with
  | ind v ih =>
    rw [numeral_step false (by decide) v]
    split
    · next small => simpa using (digitOf_decimal v small).1
    · have last := (digitOf_decimal (v % 10) (Nat.mod_lt v (by decide))).1
      rw [List.forall_mem_append, List.forall_mem_singleton]
      exact ⟨ih (v / 10) (by omega), last⟩

theorem decimalFrom_numeral (v : Nat) : decimalFrom 0 (numeral false 10 v) = v := by
  induction v using Nat.strongRecOn with
  | ind v ih =>
    have digit (i : Nat) (small : i < 10) (n : Int) :
        decimalFrom n [digitOf false i] = n * 10 + i := by
      have value := (digitOf_decimal i small).2.1
      change n * 10 + (((digitOf false i).toNat : Int) - 48) = _
      rw [value]
    rw [numeral_step false (by decide) v]
    split
    · next small =>
      rw [digit v small]
      omega
    · rw [decimalFrom_append, ih (v / 10) (by omega), digit _ (Nat.mod_lt v (by decide))]
      omega

theorem digitOf_zero_iff : ∀ (upper : Bool) (i : Nat), i < 16 →
    (digitOf upper i = zeroChar ↔ i = 0) := by
  decide

/-- No leading zero. -/
theorem numeral_no_zero (upper : Bool) (two : 1 < base) (hex : base ≤ 16) (positive : v ≠ 0) :
    ∃ c rest, numeral upper base v = c :: rest ∧ c ≠ zeroChar := by
  induction v using Nat.strongRecOn with
  | ind v ih =>
    rw [numeral_step upper two v]
    split
    · next small =>
      have zero := digitOf_zero_iff upper v (Nat.lt_of_lt_of_le small hex)
      exact ⟨_, [], rfl, fun same => positive (zero.mp same)⟩
    · next large =>
      have smaller : v / base < v := Nat.div_lt_self (Nat.pos_of_ne_zero positive) two
      have more : v / base ≠ 0 := by
        rw [Nat.div_ne_zero_iff]
        omega
      obtain ⟨c, rest, found, nonzero⟩ := ih (v / base) smaller more
      refine ⟨c, rest ++ [digitOf upper (v % base)], ?_, nonzero⟩
      rw [found, List.cons_append]

theorem numeral_head (positive : v ≠ 0) :
    ∃ c rest, numeral false 10 v = c :: rest ∧ c ≠ zeroChar ∧ isDigit c = true := by
  obtain ⟨c, rest, found, nonzero⟩ := numeral_no_zero false (by decide : 1 < 10) (by decide)
    positive
  have digit := numeral_isDigit v c (found ▸ List.mem_cons_self)
  exact ⟨c, rest, found, nonzero, digit⟩

/-! ## Signed numbers -/

/-- The text of %d without padding. -/
def decimalText (v : Int) : List UInt8 :=
  (if v < 0 then [minusChar] else []) ++ numeral false 10 v.natAbs

theorem text_signed {d : Directive} (spec : d.spec = 100 ∨ d.spec = 105) (arg : VaArg) :
    d.text arg = decimalText (arg.signed d.longflag) := by
  rw [Directive.text, if_pos spec]
  rfl

theorem decimalText_nul_free (v : Int) : (0 : UInt8) ∉ decimalText v := by
  unfold decimalText
  rw [List.mem_append, not_or]
  constructor
  · split
    · decide
    · exact List.not_mem_nil
  · intro member
    exact absurd (numeral_isDigit v.natAbs 0 member) (by decide)

/-- Reading digits of a number that is not negative never lowers it. -/
theorem decimalFrom_ge {digits : List UInt8} {start : Int} (nonneg : 0 ≤ start)
    (all : ∀ c ∈ digits, isDigit c = true) : start ≤ decimalFrom start digits := by
  induction digits generalizing start with
  | nil => exact Int.le_refl start
  | cons c rest ih =>
    have digit := isDigit_toNat (all c List.mem_cons_self)
    have next : start ≤ start * 10 + ((c.toNat : Int) - 48) := by omega
    have later := ih (Int.le_trans nonneg next) (fun b member => all b (List.mem_cons_of_mem c member))
    exact Int.le_trans next later

end AxiomeToolchain.Source.Format
