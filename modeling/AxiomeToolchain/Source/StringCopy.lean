import AxiomeToolchain.Library.ByteMemory

/-!
# `memcpy`, `memset` and `memmove`

sdk/src/string.c:4-37, as byte loops over the memory. They leave the memory
that one block write leaves: `memcpy` when its loop does not overtake its
source, `memmove` always.
-/

set_option autoImplicit false

namespace AxiomeToolchain.Source.StringCopy
open AxiomeToolchain.Library.ByteMemory

/-- `for (i = 0; i < n; i++) d[i] = s[i]`, with `left` iterations to go. -/
def memcpyLoop (m : Memory) (dst src i : Nat) : Nat → Memory
  | 0 => m
  | left + 1 => memcpyLoop (writeByte m (dst + i) (m (src + i))) dst src (i + 1) left

def memcpy (m : Memory) (dst src n : Nat) : Memory := memcpyLoop m dst src 0 n

/-- `for (i = 0; i < n; i++) d[i] = v`, with `left` iterations to go. -/
def memsetLoop (m : Memory) (dst : Nat) (v : UInt8) (i : Nat) : Nat → Memory
  | 0 => m
  | left + 1 => memsetLoop (writeByte m (dst + i) v) dst v (i + 1) left

/-- The fill value is `(unsigned char)c`. -/
def memset (m : Memory) (dst : Nat) (c : Int) (n : Nat) : Memory :=
  memsetLoop m dst (UInt8.ofInt c) 0 n

/-- `for (i = n; i > 0; i--) d[i - 1] = s[i - 1]`. -/
def memmoveDown (m : Memory) (dst src : Nat) : Nat → Memory
  | 0 => m
  | i + 1 => memmoveDown (writeByte m (dst + i) (m (src + i))) dst src i

def memmove (m : Memory) (dst src n : Nat) : Memory :=
  if dst < src then memcpyLoop m dst src 0 n else memmoveDown m dst src n

/-- The forward loop reads ahead of its stores, or they stay behind the source. -/
theorem memcpyLoop_eq (left : Nat) (m : Memory) (dst src i : Nat)
    (ahead : dst ≤ src ∨ src + i + left ≤ dst + i) :
    memcpyLoop m dst src i left = writeBytes m (dst + i) (bytesAt m (src + i) left) := by
  induction left generalizing m i with
  | zero => rfl
  | succ left ih =>
    have source : bytesAt (writeByte m (dst + i) (m (src + i))) (src + (i + 1)) left =
        bytesAt m (src + (i + 1)) left :=
      bytesAt_congr left _ (fun x low high => writeByte_other m _ x _ (by omega))
    rw [memcpyLoop, ih _ (i + 1) (by omega), source]
    rfl

theorem memcpy_eq (m : Memory) (dst src n : Nat) (ahead : dst ≤ src ∨ src + n ≤ dst) :
    memcpy m dst src n = writeBytes m dst (bytesAt m src n) :=
  memcpyLoop_eq n m dst src 0 (by omega)

/-- The backward loop stores above what it still has to read. -/
theorem memmoveDown_eq (n : Nat) (m : Memory) (dst src : Nat) (above : src ≤ dst) :
    memmoveDown m dst src n = writeBytes m dst (bytesAt m src n) := by
  induction n generalizing m with
  | zero => rfl
  | succ n ih =>
    have source : bytesAt (writeByte m (dst + n) (m (src + n))) src n = bytesAt m src n :=
      bytesAt_congr n src (fun x _ high => writeByte_other m _ x _ (by omega))
    have top : bytesAt m (src + n) 1 = [m (src + n)] := rfl
    have commute := writeBytes_writeByte (bytesAt m src n) m dst (dst + n) (m (src + n))
      (by rw [bytesAt_length])
    rw [memmoveDown, ih, source, commute, bytesAt_add, top, writeBytes_append, bytesAt_length]
    rfl

theorem memmove_eq (m : Memory) (dst src n : Nat) :
    memmove m dst src n = writeBytes m dst (bytesAt m src n) := by
  rw [memmove]
  split
  · next below => exact memcpyLoop_eq n m dst src 0 (.inl (Nat.le_of_lt below))
  · next above => exact memmoveDown_eq n m dst src (Nat.not_lt.mp above)

theorem memsetLoop_eq (left : Nat) (m : Memory) (dst : Nat) (v : UInt8) (i : Nat) :
    memsetLoop m dst v i left = writeBytes m (dst + i) (List.replicate left v) := by
  induction left generalizing m i with
  | zero => rfl
  | succ left ih =>
    rw [memsetLoop, ih]
    rfl

theorem memset_eq (m : Memory) (dst : Nat) (c : Int) (n : Nat) :
    memset m dst c n = writeBytes m dst (List.replicate n (UInt8.ofInt c)) :=
  memsetLoop_eq n m dst (UInt8.ofInt c) 0

end AxiomeToolchain.Source.StringCopy
