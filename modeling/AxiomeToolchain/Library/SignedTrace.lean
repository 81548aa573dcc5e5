import AxiomeToolchain.Library.CInt
import AxiomeToolchain.Library.Sink

/-!
# Signed arithmetic with a trace

Every addition, multiplication and negation of `int` or `long` leaves its
mathematical result in the trace and goes on with the wrapped one. A traced
computation is safe when every result fits its type; `safe_bind` splits safety
along the computation.
-/

set_option autoImplicit false

namespace AxiomeToolchain.Library.SignedTrace
open AxiomeToolchain.Library.CInt
open AxiomeToolchain.Library.Sink

inductive SignedType where
  | int | long
  deriving DecidableEq, Repr

def SignedType.min : SignedType → Int
  | .int => -2147483648
  | .long => -9223372036854775808

def SignedType.max : SignedType → Int
  | .int => 2147483647
  | .long => 9223372036854775807

@[simp] theorem SignedType.int_min : SignedType.int.min = -2147483648 := rfl
@[simp] theorem SignedType.int_max : SignedType.int.max = 2147483647 := rfl
@[simp] theorem SignedType.long_min : SignedType.long.min = -9223372036854775808 := rfl
@[simp] theorem SignedType.long_max : SignedType.long.max = 9223372036854775807 := rfl

def SignedType.wrap : SignedType → Int → Int
  | .int => wrapInt
  | .long => wrapLong

/-- An operation performed, with its mathematical result. -/
structure Operation where
  type : SignedType
  result : Int
  deriving DecidableEq, Repr

def Operation.Fits (op : Operation) : Prop := op.type.min ≤ op.result ∧ op.result ≤ op.type.max

instance (op : Operation) : Decidable op.Fits := inferInstanceAs (Decidable (_ ∧ _))

/-- The value, if the computation has one, and the operations up to it. -/
structure Traced (α : Type) where
  value : Option α
  operations : List Operation

namespace Traced
variable {α β σ : Type}

/-- A part without signed operations. -/
def lift (value : Option α) : Traced α := ⟨value, []⟩

def bind (t : Traced α) (next : α → Traced β) : Traced β :=
  match t.value with
  | none => ⟨none, t.operations⟩
  | some a => ⟨(next a).value, t.operations ++ (next a).operations⟩

def perform (type : SignedType) (result : Int) : Traced Int :=
  ⟨some (type.wrap result), [⟨type, result⟩]⟩

def add (type : SignedType) (x y : Int) : Traced Int := perform type (x + y)

def mul (type : SignedType) (x y : Int) : Traced Int := perform type (x * y)

def neg (type : SignedType) (x : Int) : Traced Int := perform type (-x)

/-- Feed the items one after the other. -/
def feed (put : σ → β → Traced σ) (s : σ) : List β → Traced σ
  | [] => lift (some s)
  | x :: rest => (put s x).bind (fun s => feed put s rest)

def Safe (t : Traced α) : Prop := ∀ op ∈ t.operations, op.Fits

variable {t : Traced α} {next : α → Traced β} {a : α} {type : SignedType} {x : Int}

@[simp] theorem lift_value (value : Option α) : (lift value).value = value := rfl

@[simp] theorem lift_bind (a : α) (next : α → Traced β) : (lift (some a)).bind next = next a := rfl

@[simp] theorem bind_value (t : Traced α) (next : α → Traced β) :
    (t.bind next).value = t.value.bind (fun a => (next a).value) := by
  unfold bind
  cases t.value <;> rfl

@[simp] theorem perform_value (type : SignedType) (result : Int) :
    (perform type result).value = some (type.wrap result) := rfl

theorem feed_value (put : σ → β → Traced σ) (s : σ) (items : List β) :
    (feed put s items).value = putAll (fun s x => (put s x).value) s items := by
  induction items generalizing s with
  | nil => rfl
  | cons x rest ih =>
    rw [feed, bind_value, putAll_cons]
    congr 1
    funext s
    exact ih s

@[simp] theorem safe_lift (value : Option α) : (lift value).Safe := List.forall_mem_nil _

theorem safe_perform_iff (type : SignedType) (result : Int) :
    (perform type result).Safe ↔ type.min ≤ result ∧ result ≤ type.max := List.forall_mem_singleton

/-- A computation is safe exactly if its first part is, and the rest on the value
of that part. -/
theorem safe_bind_iff (t : Traced α) (next : α → Traced β) :
    (t.bind next).Safe ↔ t.Safe ∧ ∀ a, t.value = some a → (next a).Safe := by
  unfold bind Safe
  cases t.value with
  | none => simp
  | some a => simp [or_imp, forall_and]

theorem safe_bind (safe : t.Safe) (rest : ∀ a, t.value = some a → (next a).Safe) :
    (t.bind next).Safe := (safe_bind_iff t next).mpr ⟨safe, rest⟩

theorem safe_perform_bind_iff (result : Int) (next : Int → Traced β) :
    ((perform type result).bind next).Safe ↔
      (type.min ≤ result ∧ result ≤ type.max) ∧ (next (type.wrap result)).Safe := by
  rw [safe_bind_iff, safe_perform_iff, perform_value]
  simp only [Option.some.injEq, forall_eq']

end Traced

def SignedType.modulus : SignedType → Int
  | .int => 4294967296
  | .long => 18446744073709551616

/-- Wrapping forgets exactly the multiples of the modulus. -/
theorem SignedType.wrap_eq_iff (type : SignedType) (x y : Int) :
    type.wrap x = type.wrap y ↔ x ≡ y [ZMOD type.modulus] := by
  cases type with
  | int =>
    change wrapInt x = wrapInt y ↔ x % 4294967296 = y % 4294967296
    unfold wrapInt
    omega
  | long =>
    change wrapLong x = wrapLong y ↔ x % 18446744073709551616 = y % 18446744073709551616
    unfold wrapLong
    omega

theorem SignedType.wrap_of_range (type : SignedType) {x : Int} (low : type.min ≤ x)
    (high : x ≤ type.max) : type.wrap x = x := by
  cases type with
  | int => exact wrapInt_of_range low high
  | long => exact wrapLong_of_range low high

theorem SignedType.wrap_modEq (type : SignedType) (x : Int) : type.wrap x ≡ x [ZMOD type.modulus] := by
  cases type with
  | int =>
    change wrapInt x % 4294967296 = x % 4294967296
    unfold wrapInt
    omega
  | long =>
    change wrapLong x % 18446744073709551616 = x % 18446744073709551616
    unfold wrapLong
    omega

theorem SignedType.wrap_mul (type : SignedType) (x y : Int) :
    type.wrap (type.wrap x * y) = type.wrap (x * y) :=
  (type.wrap_eq_iff _ _).mpr ((type.wrap_modEq x).mul_right y)

theorem SignedType.wrap_add (type : SignedType) (x y : Int) :
    type.wrap (type.wrap x + y) = type.wrap (x + y) :=
  (type.wrap_eq_iff _ _).mpr ((type.wrap_modEq x).add_right y)

theorem SignedType.wrap_neg (type : SignedType) (x : Int) :
    type.wrap (-type.wrap x) = type.wrap (-x) :=
  (type.wrap_eq_iff _ _).mpr (type.wrap_modEq x).neg

theorem SignedType.wrap_zero (type : SignedType) : type.wrap 0 = 0 := by
  cases type <;> decide

theorem SignedType.max_pos (type : SignedType) : 0 < type.max := by
  cases type <;> decide

theorem SignedType.min_eq (type : SignedType) : type.min = -type.max - 1 := by
  cases type <;> decide

theorem long_range (v : BitVec 64) :
    SignedType.long.min ≤ v.toInt ∧ v.toInt ≤ SignedType.long.max := by
  have low := BitVec.le_toInt v
  have high := BitVec.toInt_lt (x := v)
  rw [SignedType.long_min, SignedType.long_max]
  omega

theorem int_range (w : BitVec 32) :
    SignedType.int.min ≤ w.toInt ∧ w.toInt ≤ SignedType.int.max := by
  have low := BitVec.le_toInt w
  have high := BitVec.toInt_lt (x := w)
  rw [SignedType.int_min, SignedType.int_max]
  omega

end AxiomeToolchain.Library.SignedTrace
