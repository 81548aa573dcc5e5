import AxiomeToolchain.Library.TerminatedString
import AxiomeToolchain.Source.Heap
import AxiomeToolchain.Source.Stdio

/-!
# `strlen`, `strcpy`, `strncpy`, `strcat`, `strncat` and `strdup`

sdk/src/string.c:63-108,176-187, over the memory. A loop that only a zero byte
ends gets a step budget, one step for every address there is; `none` is such a
loop still running. The copies return their first argument, which is left out.
-/

set_option autoImplicit false

namespace AxiomeToolchain.Source.StringBuild
open AxiomeToolchain.Library.ByteMemory
open AxiomeToolchain.Library.CInt
open AxiomeToolchain.Library.TerminatedString
open AxiomeToolchain.Source.StringCopy
open AxiomeToolchain.Source.Heap (Site null)
open AxiomeToolchain.Source.Stdio (CString)

def scanBudget : Nat := wordModulus

/-- `while (s[i]) i++` -/
def strlenLoop (m : Memory) (s : Nat) : Nat → Nat → Option Nat
  | 0, _ => none
  | budget + 1, i => if m (s + i) ≠ 0 then strlenLoop m s budget (i + 1) else some i

def strlen (m : Memory) (s : Nat) : Option Nat := strlenLoop m s scanBudget 0

/-- `while ((*d++ = *src++) != 0)` of strcpy and strcat. -/
def copyLoop : Nat → Memory → Nat → Nat → Option Memory
  | 0, _, _, _ => none
  | budget + 1, m, d, src =>
    let c := m src
    let m := writeByte m d c
    if c ≠ 0 then copyLoop budget m (d + 1) (src + 1) else some m

def strcpy (m : Memory) (dst src : Nat) : Option Memory := copyLoop scanBudget m dst src

def strcat (m : Memory) (dst src : Nat) : Option Memory :=
  (strlen m dst).bind (fun len => copyLoop scanBudget m (dst + len) src)

/-- `for (; i < n && src[i]; i++) dst[i] = src[i]` with `left` = n - i: the memory
and the last `i`. -/
def boundedLoop (dst src : Nat) : Nat → Memory → Nat → Memory × Nat
  | 0, m, i => (m, i)
  | left + 1, m, i =>
    if m (src + i) ≠ 0 then
      boundedLoop dst src left (writeByte m (dst + i) (m (src + i))) (i + 1)
    else (m, i)

/-- The second loop is that of `memset(dst, 0, n)`, from `i` on. -/
def strncpy (m : Memory) (dst src n : Nat) : Memory :=
  let (m, i) := boundedLoop dst src n m 0
  memsetLoop m dst 0 i (n - i)

def strncat (m : Memory) (dst src n : Nat) : Option Memory :=
  (strlen m dst).map (fun len =>
    let (m, i) := boundedLoop (dst + len) src n m 0
    writeByte m (dst + len + i) 0)

def strdup (site : Site) (st : Heap.State) (s : Nat) : Option (Heap.State × Nat) :=
  if s = null then some (st, null)
  else
    (strlen st.memory s).bind (fun len =>
      (Heap.malloc site st (u64Add len 1)).map (fun (st, newStr) =>
        if newStr = null then (st, null)
        else ({ st with memory := memcpy st.memory newStr s (u64Add len 1) }, newStr)))

variable {m : Memory} {dst src p n i budget : Nat} {s t : List UInt8}

/-! ## Lengths -/

theorem strlenLoop_eq (held : StringAt m (p + i) s) (enough : s.length < budget) :
    strlenLoop m p budget i = some (i + s.length) := by
  induction budget generalizing i s with
  | zero => exact absurd enough (Nat.not_lt_zero _)
  | succ budget ih =>
    cases s with
    | nil =>
      have zero : m (p + i) = 0 := held.ends
      rw [strlenLoop, if_neg (not_not.mpr zero)]
      rfl
    | cons c s =>
      rw [strlenLoop, if_pos (held.head ▸ held.head_ne), ih (i := i + 1) held.tail
        (Nat.lt_of_succ_lt_succ enough), List.length_cons]
      congr 1
      omega

theorem strlen_eq (held : StringAt m p s) (fits : s.length < wordModulus) :
    strlen m p = some s.length := by
  have scan : strlenLoop m p scanBudget 0 = some (0 + s.length) := strlenLoop_eq held fits
  rwa [Nat.zero_add] at scan

/-! ## The unbounded copy -/

/-- The copy is one block write as long as no store comes before the read of its byte. -/
theorem copyLoop_eq (held : StringAt m src s) (ahead : dst ≤ src ∨ src + s.length < dst)
    (enough : s.length < budget) :
    copyLoop budget m dst src = some (writeBytes m dst (s ++ [0])) := by
  induction budget generalizing m dst src s with
  | zero => exact absurd enough (Nat.not_lt_zero _)
  | succ budget ih =>
    cases s with
    | nil =>
      have zero : m src = 0 := held.ends
      simp only [copyLoop, zero, ne_eq, not_true_eq_false, if_false]
      rfl
    | cons c s =>
      simp only [List.length_cons] at ahead enough
      have tail : StringAt (writeByte m dst (m src)) (src + 1) s :=
        held.tail.congr (fun x low high => writeByte_other m dst x _ (by omega))
      rw [copyLoop, if_pos (held.head ▸ held.head_ne), ih tail (by omega) (by omega), held.head]
      rfl

/-- A destination inside the source overwrites the terminator before the copy
reads it: the `k` bytes in front of every read are those of the source, none of
them zero. -/
theorem copyLoop_stuck {k : Nat} (k_pos : 0 < k) (nonzero : ∀ j < k, m (src + j) ≠ 0) :
    copyLoop budget m (src + k) src = none := by
  induction budget generalizing m src with
  | zero => rfl
  | succ budget ih =>
    have first : m src ≠ 0 := nonzero 0 k_pos
    rw [copyLoop, if_pos first, show src + k + 1 = src + 1 + k by omega]
    apply ih
    intro j below
    by_cases last : src + 1 + j = src + k
    · rw [last, writeByte_same]
      exact first
    · rw [writeByte_other _ _ _ _ last, show src + 1 + j = src + (j + 1) by omega]
      exact nonzero (j + 1) (by omega)

theorem copyLoop_overlap (held : StringAt m src s) (above : src < dst)
    (inside : dst ≤ src + s.length) : copyLoop budget m dst src = none := by
  obtain ⟨k, rfl⟩ := Nat.exists_eq_add_of_le (Nat.le_of_lt above)
  exact copyLoop_stuck (by omega) (fun j below => held.nonzero (by omega))

/-! ## The bounded copy -/

theorem boundedLoop_eq {left : Nat} (held : TextAt m (src + i) left t)
    (ahead : dst ≤ src ∨ src + min left (t.length + 1) ≤ dst) :
    boundedLoop dst src left m i = (writeBytes m (dst + i) t, i + t.length) := by
  induction left generalizing m i t with
  | zero =>
    obtain rfl := List.length_eq_zero_iff.mp (Nat.le_zero.mp held.short)
    rfl
  | succ left ih =>
    cases t with
    | nil =>
      have zero : m (src + i) = 0 := held.ends (Nat.zero_lt_succ left)
      rw [boundedLoop, if_neg (not_not.mpr zero)]
      rfl
    | cons c t =>
      have first : m (src + i) = c := (List.cons.inj held.bytes).1
      have nonzero : c ≠ 0 := fun zero => held.nul_free (zero ▸ List.mem_cons_self)
      have short := held.short
      simp only [List.length_cons] at ahead short
      have tail : TextAt (writeByte m (dst + i) c) (src + (i + 1)) left t :=
        held.tail.congr (fun x low high => writeByte_other m _ x _ (by omega))
      rw [boundedLoop, first, if_pos nonzero, ih tail (by omega), List.length_cons]
      rw [show i + 1 + t.length = i + (t.length + 1) by omega]
      rfl

theorem strncpy_eq (held : TextAt m src n t)
    (ahead : dst ≤ src ∨ src + min n (t.length + 1) ≤ dst) :
    strncpy m dst src n = writeBytes m dst (t ++ List.replicate (n - t.length) 0) := by
  have start : TextAt m (src + 0) n t := held
  rw [strncpy, boundedLoop_eq start ahead, writeBytes_append]
  simp only [memsetLoop_eq, Nat.zero_add, Nat.add_zero]

theorem strncat_eq (old : StringAt m dst s) (fits : s.length < wordModulus) (held : TextAt m src n t)
    (ahead : dst + s.length ≤ src ∨ src + min n (t.length + 1) ≤ dst + s.length) :
    strncat m dst src n = some (writeBytes m (dst + s.length) (t ++ [0])) := by
  have start : TextAt m (src + 0) n t := held
  rw [strncat, strlen_eq old fits, Option.map_some, boundedLoop_eq start ahead, writeBytes_append]
  simp only [Nat.zero_add, Nat.add_zero]
  rfl

/-! ## The copies of whole strings -/

theorem strcpy_eq (s : CString) (held : StringAt m src s.bytes) :
    strcpy m dst src =
      if dst ≤ src ∨ src + s.bytes.length < dst then some (writeBytes m dst s.terminated) else none := by
  split
  · next ahead => exact copyLoop_eq held ahead s.fits
  · next behind => exact copyLoop_overlap held (by omega) (by omega)

theorem strcat_eq (s t : CString) (held : StringAt m src s.bytes) (old : StringAt m dst t.bytes) :
    strcat m dst src =
      if dst + t.bytes.length ≤ src ∨ src + s.bytes.length < dst + t.bytes.length then
        some (writeBytes m (dst + t.bytes.length) s.terminated)
      else none := by
  rw [strcat, strlen_eq old t.fits, Option.bind_some]
  exact strcpy_eq s held

end AxiomeToolchain.Source.StringBuild
