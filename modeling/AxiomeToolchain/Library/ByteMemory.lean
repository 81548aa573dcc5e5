import Mathlib

/-!
# Byte memory with little-endian fields

A memory gives every natural address one byte. Fields of `width` bytes are
read and written lowest byte first. The frame lemmas say which bytes a write
leaves alone, the congruence lemmas which bytes a read depends on.
-/

set_option autoImplicit false

namespace AxiomeToolchain.Library.ByteMemory

abbrev Memory := Nat → UInt8

def writeByte (m : Memory) (a : Nat) (b : UInt8) : Memory := Function.update m a b

@[simp] theorem writeByte_same (m : Memory) (a : Nat) (b : UInt8) : writeByte m a b a = b := by
  simp [writeByte]

@[simp] theorem writeByte_other (m : Memory) (a x : Nat) (b : UInt8) (different : x ≠ a) :
    writeByte m a b x = m x := by
  simp [writeByte, different]

/-- The number held by the `width` bytes from `a` on, lowest byte first. -/
def readLE (m : Memory) (a : Nat) : Nat → Nat
  | 0 => 0
  | width + 1 => (m a).toNat + 256 * readLE m (a + 1) width

/-- Write `v` into the `width` bytes from `a` on; higher digits of `v` are lost. -/
def writeLE (m : Memory) (a v : Nat) : Nat → Memory
  | 0 => m
  | width + 1 => writeLE (writeByte m a (UInt8.ofNat v)) (a + 1) (v / 256) width

theorem readLE_congr {m m' : Memory} (width : Nat) (a : Nat)
    (same : ∀ x, a ≤ x → x < a + width → m' x = m x) : readLE m' a width = readLE m a width := by
  induction width generalizing a with
  | zero => rfl
  | succ width ih =>
    simp only [readLE]
    rw [same a (Nat.le_refl a) (by omega),
      ih (a + 1) (fun x low high => same x (by omega) (by omega))]

theorem readLE_lt (m : Memory) (a width : Nat) : readLE m a width < 256 ^ width := by
  induction width generalizing a with
  | zero => simp [readLE]
  | succ width ih =>
    have tail := ih (a + 1)
    have head : (m a).toNat < 256 := (m a).toNat_lt
    simp only [readLE, Nat.pow_succ]
    omega

theorem writeLE_frame (width : Nat) (m : Memory) (a v x : Nat)
    (outside : x < a ∨ a + width ≤ x) : writeLE m a v width x = m x := by
  induction width generalizing m a v with
  | zero => rfl
  | succ width ih =>
    rw [writeLE, ih _ _ _ (by omega)]
    exact writeByte_other m a x _ (by omega)

theorem readLE_writeLE_same (width : Nat) (m : Memory) (a v : Nat) :
    readLE (writeLE m a v width) a width = v % 256 ^ width := by
  induction width generalizing m a v with
  | zero => simp [readLE, Nat.mod_one]
  | succ width ih =>
    have low : writeLE (writeByte m a (UInt8.ofNat v)) (a + 1) (v / 256) width a = UInt8.ofNat v := by
      rw [writeLE_frame width _ _ _ _ (Or.inl (Nat.lt_succ_self a)), writeByte_same]
    have digit : (UInt8.ofNat v).toNat = v % 256 := by simp
    simp only [readLE, writeLE, ih, low, digit]
    rw [Nat.pow_succ, Nat.mul_comm (256 ^ width) 256, Nat.mod_mul]

theorem readLE_writeLE_apart (m : Memory) (a v width b width' : Nat)
    (apart : b + width' ≤ a ∨ a + width ≤ b) :
    readLE (writeLE m a v width) b width' = readLE m b width' :=
  readLE_congr width' b (fun x _ _ => writeLE_frame width m a v x (by omega))

/-- The `n` bytes from `a` on. -/
def bytesAt (m : Memory) (a : Nat) : Nat → List UInt8
  | 0 => []
  | n + 1 => m a :: bytesAt m (a + 1) n

/-- Write consecutive bytes from `a` on. -/
def writeBytes (m : Memory) (a : Nat) : List UInt8 → Memory
  | [] => m
  | b :: rest => writeBytes (writeByte m a b) (a + 1) rest

@[simp] theorem bytesAt_length (m : Memory) (a n : Nat) : (bytesAt m a n).length = n := by
  induction n generalizing a with
  | zero => rfl
  | succ n ih => simp [bytesAt, ih]

theorem bytesAt_congr {m m' : Memory} (n : Nat) (a : Nat)
    (same : ∀ x, a ≤ x → x < a + n → m' x = m x) : bytesAt m' a n = bytesAt m a n := by
  induction n generalizing a with
  | zero => rfl
  | succ n ih =>
    simp only [bytesAt]
    rw [same a (Nat.le_refl a) (by omega),
      ih (a + 1) (fun x low high => same x (by omega) (by omega))]

theorem bytesAt_add (m : Memory) (a n k : Nat) :
    bytesAt m a (n + k) = bytesAt m a n ++ bytesAt m (a + n) k := by
  induction n generalizing a with
  | zero => simp [bytesAt]
  | succ n ih =>
    rw [Nat.succ_add, bytesAt, ih (a + 1), bytesAt, List.cons_append]
    rw [show a + 1 + n = a + (n + 1) from by omega]

theorem bytesAt_take (m : Memory) (a n k : Nat) (shorter : k ≤ n) :
    (bytesAt m a n).take k = bytesAt m a k := by
  obtain ⟨rest, rfl⟩ := Nat.exists_eq_add_of_le shorter
  rw [bytesAt_add]
  exact List.take_left' (bytesAt_length m a k)

theorem writeBytes_frame (bytes : List UInt8) (m : Memory) (a x : Nat)
    (outside : x < a ∨ a + bytes.length ≤ x) : writeBytes m a bytes x = m x := by
  induction bytes generalizing m a with
  | nil => rfl
  | cons b rest ih =>
    simp only [List.length_cons] at outside
    rw [writeBytes, ih _ _ (by omega)]
    exact writeByte_other m a x b (by omega)

theorem writeBytes_append (xs ys : List UInt8) (m : Memory) (a : Nat) :
    writeBytes m a (xs ++ ys) = writeBytes (writeBytes m a xs) (a + xs.length) ys := by
  induction xs generalizing m a with
  | nil => rfl
  | cons b rest ih =>
    rw [List.cons_append, writeBytes, ih, writeBytes, List.length_cons]
    rw [show a + 1 + rest.length = a + (rest.length + 1) by omega]

/-- A byte stored behind a range and the stores into it can be swapped. -/
theorem writeBytes_writeByte (bytes : List UInt8) (m : Memory) (a x : Nat) (b : UInt8)
    (behind : a + bytes.length ≤ x) :
    writeBytes (writeByte m x b) a bytes = writeByte (writeBytes m a bytes) x b := by
  induction bytes generalizing m a with
  | nil => rfl
  | cons c rest ih =>
    simp only [List.length_cons] at behind
    have apart : x ≠ a := by omega
    have swap : writeByte (writeByte m x b) a c = writeByte (writeByte m a c) x b := by
      unfold writeByte
      rw [Function.update_comm apart]
    rw [writeBytes, swap, ih _ _ (by omega), writeBytes]

theorem bytesAt_get (m : Memory) (a n i : Nat) (inside : i < n) :
    (bytesAt m a n)[i]? = some (m (a + i)) := by
  induction n generalizing a i with
  | zero => exact absurd inside (Nat.not_lt_zero i)
  | succ n ih =>
    cases i with
    | zero => rfl
    | succ i =>
      rw [bytesAt, List.getElem?_cons_succ, ih (a + 1) i (Nat.lt_of_succ_lt_succ inside)]
      rw [show a + 1 + i = a + (i + 1) by omega]

theorem bytesAt_writeBytes_same (bytes : List UInt8) (m : Memory) (a : Nat) :
    bytesAt (writeBytes m a bytes) a bytes.length = bytes := by
  induction bytes generalizing m a with
  | nil => rfl
  | cons b rest ih =>
    have head : writeBytes (writeByte m a b) (a + 1) rest a = b := by
      rw [writeBytes_frame rest _ _ _ (Or.inl (Nat.lt_succ_self a)), writeByte_same]
    simp only [writeBytes, List.length_cons, bytesAt, head, ih]

/-- Bytes written inside a longer range replace that part of it only. -/
theorem bytesAt_writeBytes_inside (m : Memory) (a n offset : Nat) (bytes : List UInt8)
    (inside : offset + bytes.length ≤ n) :
    bytesAt (writeBytes m (a + offset) bytes) a n =
      (bytesAt m a n).take offset ++ bytes ++ (bytesAt m a n).drop (offset + bytes.length) := by
  obtain ⟨rest, rfl⟩ := Nat.exists_eq_add_of_le inside
  have before : bytesAt (writeBytes m (a + offset) bytes) a offset = bytesAt m a offset :=
    bytesAt_congr offset a (fun x _ high => writeBytes_frame bytes m _ x (by omega))
  have after : bytesAt (writeBytes m (a + offset) bytes) (a + (offset + bytes.length)) rest =
      bytesAt m (a + (offset + bytes.length)) rest :=
    bytesAt_congr rest _ (fun x low _ => writeBytes_frame bytes m _ x (by omega))
  have dropped : (bytesAt m a (offset + bytes.length + rest)).drop (offset + bytes.length) =
      bytesAt m (a + (offset + bytes.length)) rest := by
    rw [bytesAt_add m a (offset + bytes.length) rest]
    exact List.drop_left' (bytesAt_length m a _)
  rw [dropped, bytesAt_take m a _ offset (by omega), bytesAt_add, bytesAt_add, before, after,
    bytesAt_writeBytes_same]

/-! ## Fields as byte lists -/

/-- The `width` low bytes of `v`, lowest first. -/
def digits (v : Nat) : Nat → List UInt8
  | 0 => []
  | width + 1 => UInt8.ofNat v :: digits (v / 256) width

@[simp] theorem digits_length (v width : Nat) : (digits v width).length = width := by
  induction width generalizing v with
  | zero => rfl
  | succ width ih => rw [digits, List.length_cons, ih]

theorem writeLE_eq_writeBytes (width : Nat) (m : Memory) (a v : Nat) :
    writeLE m a v width = writeBytes m a (digits v width) := by
  induction width generalizing m a v with
  | zero => rfl
  | succ width ih => rw [writeLE, ih, digits, writeBytes]

/-- A field that holds the digits of `v` is read as `v`. -/
theorem readLE_of_digits (width : Nat) (m : Memory) (a v : Nat)
    (held : bytesAt m a width = digits v width) : readLE m a width = v % 256 ^ width := by
  induction width generalizing a v with
  | zero => simp [readLE, Nat.mod_one]
  | succ width ih =>
    rw [bytesAt, digits] at held
    obtain ⟨low, high⟩ := List.cons.inj held
    have digit : (UInt8.ofNat v).toNat = v % 256 := by simp
    rw [readLE, ih _ _ high, low, digit, Nat.pow_succ, Nat.mul_comm (256 ^ width) 256, Nat.mod_mul]

end AxiomeToolchain.Library.ByteMemory
