import AxiomeToolchain.Source.Environment
import AxiomeToolchain.Source.StringBuild

/-!
# `getenv` in the memory of the process

sdk/src/stdlib.c:216-231 over byte memory: `environ` is the address of the
variable, pointers are read from the array it points to, and the pointer returned
is an address. `getenv_refines` says that this is `getenv` of Environment on the
strings behind the pointers.
-/

set_option autoImplicit false

namespace AxiomeToolchain.Source.EnvironmentMemory
open AxiomeToolchain.Library.ByteMemory
open AxiomeToolchain.Library.CInt
open AxiomeToolchain.Library.TerminatedString
open AxiomeToolchain.Source.Heap (null)
open AxiomeToolchain.Source.Stdio (CString)
open AxiomeToolchain.Source.StringBuild
open AxiomeToolchain.Source.Environment (equalsSign)

/-- `while (i < namelen && e[i] == name[i]) i++` with `left` = namelen - i. -/
def agreementLoop (m : Memory) (e name : Nat) : Nat → Nat → Nat
  | 0, i => i
  | left + 1, i =>
    if m (e + i) = m (name + i) then agreementLoop m e name left (i + 1) else i

/-- `for (char **p = environ; *p; p++)` -/
def searchLoop (m : Memory) (name namelen : Nat) : Nat → Nat → Option Nat
  | 0, _ => none
  | budget + 1, p =>
    let e := readLE m p 8
    if e = null then some null
    else
      let i := agreementLoop m e name namelen 0
      if i = namelen ∧ m (e + i) = equalsSign then some (e + i + 1)
      else searchLoop m name namelen budget (p + 8)

/-- The loop for `namelen` is that of strlen. -/
def getenv (m : Memory) (environ name : Nat) : Option Nat :=
  if name = null ∨ m name = 0 ∨ readLE m environ 8 = null then some null
  else
    (strlen m name).bind (fun namelen =>
      searchLoop m name namelen scanBudget (readLE m environ 8))

/-! ## The array in memory -/

/-- A pointer and the string it points to. -/
structure Slot where
  ptr : Nat
  text : CString

/-- The array at `p` points to the strings, in order, and ends in NULL. -/
structure ArrayAt (m : Memory) (p : Nat) (slots : List Slot) : Prop where
  pointers : ∀ i s, slots[i]? = some s → readLE m (p + 8 * i) 8 = s.ptr
  nonnull : ∀ s ∈ slots, s.ptr ≠ null
  strings : ∀ s ∈ slots, StringAt m s.ptr s.text.bytes
  ends : readLE m (p + 8 * slots.length) 8 = null

variable {m : Memory} {p e name i j : Nat} {s : Slot} {slots : List Slot} {key text : List UInt8}

theorem ArrayAt.head (array : ArrayAt m p (s :: slots)) : readLE m p 8 = s.ptr :=
  array.pointers 0 s rfl

theorem ArrayAt.tail (array : ArrayAt m p (s :: slots)) : ArrayAt m (p + 8) slots where
  pointers i t found := by
    rw [← array.pointers (i + 1) t found]
    congr 1
    omega
  nonnull t member := array.nonnull t (List.mem_cons_of_mem s member)
  strings t member := array.strings t (List.mem_cons_of_mem s member)
  ends := by
    rw [← array.ends, List.length_cons]
    congr 1
    omega

/-- The strings as the objects that Environment searches. -/
def objects (slots : List Slot) : List (Option (List UInt8)) :=
  slots.map (fun s => some s.text.terminated) ++ [none]

/-- An index into the array and an offset, as an address. -/
def address (slots : List Slot) : Option (Nat × Nat) → Nat
  | none => null
  | some (i, offset) => (slots.map Slot.ptr).getD i null + offset

/-! ## One entry -/

/-- Both loops stop at the same place. -/
theorem agreementLoop_eq (held : StringAt m (e + i) text)
    (known : bytesAt m (name + i) key.length = key) (nul_free : (0 : UInt8) ∉ key) :
    ∃ j, Environment.agreement (text ++ [0]) key = some j ∧
      agreementLoop m e name key.length i = i + j := by
  induction key generalizing i text with
  | nil => exact ⟨0, by rw [Environment.agreement], rfl⟩
  | cons c key ih =>
    rw [List.mem_cons, not_or] at nul_free
    obtain ⟨first, later⟩ := List.cons.inj known
    cases text with
    | nil =>
      have ended : m (e + i) = 0 := held.ends
      refine ⟨0, ?_, ?_⟩
      · rw [List.nil_append, Environment.agreement, if_neg nul_free.1]
      · rw [List.length_cons, agreementLoop, if_neg (by rw [ended, first]; exact nul_free.1)]
        rfl
    | cons b text =>
      have head : m (e + i) = b := held.head
      rw [List.cons_append, Environment.agreement, List.length_cons, agreementLoop, head, first]
      by_cases same : b = c
      · obtain ⟨j, run, stops⟩ := ih (i := i + 1) held.tail later nul_free.2
        rw [if_pos same, if_pos same, run]
        refine ⟨j + 1, rfl, ?_⟩
        rw [stops]
        omega
      · rw [if_neg same, if_neg same]
        exact ⟨0, rfl, rfl⟩

theorem entryMatches_eq (held : StringAt m e text)
    (known : bytesAt m name key.length = key) (nul_free : (0 : UInt8) ∉ key) :
    Environment.entryMatches (text ++ [0]) key =
      some (decide (agreementLoop m e name key.length 0 = key.length ∧
        m (e + agreementLoop m e name key.length 0) = equalsSign)) := by
  obtain ⟨j, run, stops⟩ := agreementLoop_eq (i := 0) held known nul_free
  rw [Nat.zero_add] at stops
  rw [Environment.entryMatches, run, Option.bind_some, stops]
  by_cases whole : j = key.length
  · obtain ⟨j', run', within⟩ := Environment.agreement_eq text [] nul_free
    cases run.symm.trans run'
    have inside : j < text.length + 1 := by
      have shorter := (within.mp whole).length_le
      omega
    have byte : (text ++ [0])[j]? = some (m (e + j)) := by
      rw [← held.block]
      exact bytesAt_get m e _ j inside
    rw [if_pos whole, byte]
    simp [whole]
  · rw [if_neg whole]
    simp [whole]

/-! ## The search -/

theorem address_later (s : Slot) (slots : List Slot) (r : Option (Nat × Nat)) :
    address (s :: slots) (r.map (fun found => (found.1 + 1, found.2))) = address slots r := by
  cases r with
  | none => rfl
  | some found => simp [address]

theorem searchLoop_eq (array : ArrayAt m p slots) (known : bytesAt m name key.length = key)
    (nul_free : (0 : UInt8) ∉ key) {budget : Nat} (enough : slots.length < budget) :
    searchLoop m name key.length budget p =
      (Environment.searchLoop key (objects slots)).map (address slots) := by
  induction slots generalizing p budget with
  | nil =>
    obtain ⟨left, rfl⟩ := Nat.exists_eq_add_one_of_ne_zero (Nat.ne_zero_of_lt enough)
    have ended : readLE m p 8 = null := array.ends
    rw [searchLoop, if_pos ended]
    rfl
  | cons s slots ih =>
    obtain ⟨left, rfl⟩ := Nat.exists_eq_add_one_of_ne_zero (Nat.ne_zero_of_lt enough)
    have held := array.strings s List.mem_cons_self
    rw [searchLoop, array.head, if_neg (array.nonnull s List.mem_cons_self)]
    rw [objects, List.map_cons, List.cons_append, Environment.searchLoop, CString.terminated,
      entryMatches_eq held known nul_free, Option.bind_some]
    by_cases hit : agreementLoop m s.ptr name key.length 0 = key.length ∧
        m (s.ptr + agreementLoop m s.ptr name key.length 0) = equalsSign
    · rw [if_pos hit, if_pos (decide_eq_true hit), hit.1]
      rfl
    · have later := funext (address_later s slots)
      rw [if_neg hit, if_neg (by rw [decide_eq_true_eq]; exact hit),
        ih array.tail (Nat.lt_of_succ_lt_succ enough), Option.map_map]
      exact congrArg (fun f => Option.map f _) later.symm

/-- For every array of entries and every name in memory: getenv returns the
address that Environment's getenv gives as an entry and an offset. -/
theorem getenv_refines {environ : Nat} (array : ArrayAt m (readLE m environ 8) slots)
    (published : readLE m environ 8 ≠ null) (few : slots.length < wordModulus)
    (nonnull : name ≠ null) (key : CString) (held : StringAt m name key.bytes) :
    getenv m environ name =
      (Environment.getenv (some (objects slots)) (some key.terminated)).map (address slots) := by
  rw [getenv]
  cases shape : key.bytes with
  | nil =>
    have ended : m name = 0 := by
      rw [shape] at held
      exact held.ends
    rw [if_pos (.inr (.inl ended)), CString.terminated, shape]
    rfl
  | cons c rest =>
    have nonzero : c ≠ 0 := (shape ▸ held).head_ne
    have first : m name = c := (shape ▸ held).head
    rw [if_neg (by rw [first]; simp [nonnull, nonzero, published]), strlen_eq held key.fits,
      Option.bind_some, scanBudget, searchLoop_eq array held.bytes held.nul_free few]
    have length := Environment.nameLength_eq [] key.nul_free
    have whole : (key.bytes ++ [0]).take key.bytes.length = key.bytes := List.take_left
    rw [CString.terminated]
    rw [shape, List.cons_append] at length whole ⊢
    rw [Environment.getenv, if_neg nonzero, length, Option.bind_some, whole]

end AxiomeToolchain.Source.EnvironmentMemory
