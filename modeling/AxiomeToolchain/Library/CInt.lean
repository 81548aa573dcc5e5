import Mathlib

/-!
# Machine integers, words of flags, and numerals

Unsigned 64-bit arithmetic wraps; `int` and `long` are two's complement. The
signed wraps are stated by one remainder so that `omega` can follow them. A flag
is a word with one bit set; a numeral is read from the left in its base.
-/

set_option autoImplicit false

namespace AxiomeToolchain.Library.CInt

def wordModulus : Nat := 2 ^ 64

def u64Add (a b : Nat) : Nat := (a + b) % wordModulus

def u64Sub (a b : Nat) : Nat := (a + (wordModulus - b % wordModulus)) % wordModulus

def u64Mul (a b : Nat) : Nat := (a * b) % wordModulus

theorem u64Add_of_lt {a b : Nat} (fits : a + b < wordModulus) : u64Add a b = a + b :=
  Nat.mod_eq_of_lt fits

theorem u64Sub_of_le {a b : Nat} (le : b ≤ a) (fits : a < wordModulus) : u64Sub a b = a - b := by
  unfold u64Sub wordModulus at *
  omega

theorem u64Mul_of_lt {a b : Nat} (fits : a * b < wordModulus) : u64Mul a b = a * b :=
  Nat.mod_eq_of_lt fits

/-- Reduction of a mathematical integer to a 32-bit `int`. -/
def wrapInt (x : Int) : Int := (x + 2147483648) % 4294967296 - 2147483648

/-- Reduction of a mathematical integer to a 64-bit `long`. -/
def wrapLong (x : Int) : Int := (x + 9223372036854775808) % 18446744073709551616 - 9223372036854775808

def intMax : Int := 2147483647

theorem wrapInt_of_range {x : Int} (low : -2147483648 ≤ x) (high : x ≤ 2147483647) :
    wrapInt x = x := by
  unfold wrapInt
  omega

theorem wrapLong_of_range {x : Int} (low : -9223372036854775808 ≤ x)
    (high : x ≤ 9223372036854775807) : wrapLong x = x := by
  unfold wrapLong
  omega

/-! ## Words made of flags -/

variable {w : Nat} {m f : BitVec w} {flags : List (BitVec w)}

def IsFlag (f : BitVec w) : Prop := ∃ k, f = BitVec.twoPow w k

def union (flags : List (BitVec w)) : BitVec w := flags.foldr (· ||| ·) 0

theorem and_flag (m : BitVec w) (flag : IsFlag f) : (if m &&& f ≠ 0 then f else 0) = m &&& f := by
  obtain ⟨k, rfl⟩ := flag
  rw [BitVec.and_twoPow]
  cases m.getLsbD k with
  | true =>
    simp only [if_true]
    split
    · rfl
    · next zero => exact (not_not.mp zero).symm
  | false => simp

theorem and_union (m : BitVec w) (flags : List (BitVec w)) :
    m &&& union flags = union (flags.map (m &&& ·)) := by
  induction flags with
  | nil => simp [union]
  | cons f rest ih =>
    rw [union, List.foldr_cons, BitVec.and_or_distrib_left]
    simp only [union] at ih
    rw [ih, List.map_cons, union, List.foldr_cons]

/-- Testing a flag needs no more of the word than the flags of a union with it. -/
theorem and_within {all : BitVec w} (within : all &&& f = f) (m : BitVec w) :
    (m &&& all) &&& f = m &&& f := by
  rw [BitVec.and_assoc, within]

/-! ## Numerals -/

/-- The digits are '0' to '9' and six letters of one case. -/
def digitValue (upper : Bool) (c : UInt8) : Option Nat :=
  if 48 ≤ c.toNat ∧ c.toNat ≤ 57 then some (c.toNat - 48)
  else if upper = true ∧ 65 ≤ c.toNat ∧ c.toNat ≤ 70 then some (c.toNat - 55)
  else if upper = false ∧ 97 ≤ c.toNat ∧ c.toNat ≤ 102 then some (c.toNat - 87)
  else none

/-- The number that `n` and the digits behind it make; a character that is no
digit of the base makes none. -/
def positional (upper : Bool) (base n : Nat) : List UInt8 → Option Nat
  | [] => some n
  | c :: rest =>
    (digitValue upper c).bind (fun d =>
      if d < base then positional upper base (n * base + d) rest else none)

variable {upper : Bool} {base d : Nat} {c : UInt8}

theorem positional_cons (n : Nat) (rest : List UInt8) (value : digitValue upper c = some d)
    (small : d < base) :
    positional upper base n (c :: rest) = positional upper base (n * base + d) rest := by
  rw [positional, value, Option.bind_some, if_pos small]

theorem positional_append (n : Nat) (xs ys : List UInt8) :
    positional upper base n (xs ++ ys) =
      (positional upper base n xs).bind (fun n => positional upper base n ys) := by
  induction xs generalizing n with
  | nil => rfl
  | cons c rest ih =>
    rw [List.cons_append, positional, positional, Option.bind_assoc]
    congr 1
    funext d
    split
    · exact ih _
    · rfl

end AxiomeToolchain.Library.CInt
