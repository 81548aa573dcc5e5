import AxiomeToolchain.Source.FormatStores
import AxiomeToolchain.Source.FormatWidth

/-!
# What snprintf and vsnprintf store

Every store of a character is guarded by `pos < size - 1`, an unsigned
comparison that a size of 0 does not stop. From size 1 on the stores are the
text as far as the buffer goes, and a NUL.
-/

set_option autoImplicit false

namespace AxiomeToolchain.Guarantees.BoundedFormatting
open AxiomeToolchain.Library.CInt
open AxiomeToolchain.Library.Sink
open AxiomeToolchain.Source.Stdio
open AxiomeToolchain.Source.Format

/-- All stores are inside the buffer, and the last one is its NUL. -/
structure InBounds (size : Nat) (stores : List (Nat × UInt8)) : Prop where
  inside : ∀ entry ∈ stores, entry.1 < size
  terminated : 1 ≤ size → ∃ i, i < size ∧ stores.getLast? = some (i, 0)

/-- A string that is empty, as far as an `int` can tell, at no greater width. -/
def Silent : Item → Prop
  | .convert d arg => d.spec = 115 ∧ arg.word ≠ 0 ∧ wrapInt arg.text.bytes.length ≤ 0 ∧
      wrapInt d.width ≤ wrapInt arg.text.bytes.length
  | .literal _ | .unknown _ => False

variable {d : Directive} {arg : VaArg} {it : Item} {out : Out} {text : List UInt8}

/-! ## Items without output -/

theorem wrapInt_range (x : Int) : -2147483648 ≤ wrapInt x ∧ wrapInt x ≤ 2147483647 := by
  unfold wrapInt
  omega

theorem padding_nil_iff (x y : Int) (c : UInt8) :
    padding (wrapInt x) (wrapInt y) c = [] ↔ wrapInt x ≤ wrapInt y := by
  have wide := wrapInt_range x
  have long := wrapInt_range y
  unfold padding
  split
  · next longer =>
    have rounds : countdown (wrapInt (wrapInt x - wrapInt y)) = (wrapInt x - wrapInt y).toNat := by
      generalize wrapInt x = width at *
      generalize wrapInt y = len at *
      unfold countdown wrapInt
      omega
    rw [rounds, List.replicate_eq_nil_iff]
    omega
  · next shorter => exact iff_of_true rfl (by omega)

theorem padded_nil_iff (d : Directive) (text : List UInt8) (x : Int) :
    d.stored.padded (wrapInt x) text = [] ↔
      text.take (wrapInt x).toNat = [] ∧ wrapInt d.width ≤ wrapInt x := by
  rw [Directive.padded, Directive.stored_width]
  split
  · rw [List.append_eq_nil_iff, padding_nil_iff]
  · rw [List.append_eq_nil_iff, padding_nil_iff, and_comm]

/-- A text that fits an `int` is written, unless it is empty. -/
theorem padded_ne_nil (d : Directive) (nonempty : text ≠ []) (short : text.length ≤ 26) :
    d.stored.padded (wrapInt text.length) text ≠ [] := by
  rw [ne_eq, padded_nil_iff, ← measured_short short, Int.toNat_natCast, List.take_length]
  exact fun both => nonempty both.1

theorem bufferText_nil_iff : it.bufferText = [] ↔ Silent it := by
  cases it with
  | literal c => simp [Item.bufferText, Silent]
  | unknown d =>
    refine iff_of_false (padded_ne_nil d (by simp [Directive.unknownText]) ?_) id
    simp [Directive.unknownText]
  | convert d arg =>
    by_cases string : d.spec = 115
    · have same : d.text arg = arg.string := by simp [Directive.text, string]
      rw [Item.bufferText, same, Silent, VaArg.string]
      by_cases null : arg.word = 0
      · rw [if_pos null]
        refine iff_of_false (padded_ne_nil d (by decide) (by decide)) (fun silent => ?_)
        exact silent.2.1 null
      · rw [if_neg null, padded_nil_iff]
        simp only [string, null, ne_eq, not_false_eq_true, true_and]
        refine and_congr_left (fun _ => ?_)
        rw [List.take_eq_nil_iff]
        constructor
        · rintro (none | empty)
          · omega
          · rw [empty]
            decide
        · intro small
          exact .inl (Int.toNat_of_nonpos small)
    · obtain ⟨positive, short⟩ := text_short d arg string
      refine iff_of_false (padded_ne_nil d (List.ne_nil_of_length_pos positive) short) ?_
      exact fun silent => string silent.1

theorem output_nil_iff (its : List Item) :
    its.flatMap Item.bufferText = [] ↔ ∀ it ∈ its, Silent it := by
  rw [List.flatMap_eq_nil_iff]
  exact forall₂_congr (fun it _ => bufferText_nil_iff)

/-! ## The stores -/

/-- Feeding characters keeps the earlier stores and adds none at or after the
last index. -/
theorem putAll_below (target : Target) (out : Out) (text : List UInt8)
    (below : ∀ entry ∈ out.stores, entry.1 < u64Sub target.size 1) :
    ∃ out', putAll (store target) out text = some out' ∧ out.stores <+: out'.stores ∧
      ∀ entry ∈ out'.stores, entry.1 < u64Sub target.size 1 := by
  induction text generalizing out with
  | nil => exact ⟨out, rfl, List.prefix_refl _, below⟩
  | cons c rest ih =>
    obtain ⟨next, stored, longer, inside⟩ : ∃ next, store target out c = some next ∧
        out.stores <+: next.stores ∧ ∀ entry ∈ next.stores, entry.1 < u64Sub target.size 1 := by
      refine ⟨_, rfl, ?_, ?_⟩
      · dsimp only
        split
        · exact List.prefix_append _ _
        · exact List.prefix_refl _
      · dsimp only
        split
        · next guard =>
          rw [List.forall_mem_append]
          exact ⟨below, by simpa using guard.2.2⟩
        · exact below
    obtain ⟨out', ran, longer', inside'⟩ := ih next inside
    exact ⟨out', by rw [putAll_cons, stored, Option.bind_some, ran], longer.trans longer', inside'⟩

/-- The stores of a call, before and with the NUL. -/
theorem vsnprintf_stores {str : Nat} (size : Nat) (fmt : CString) (ap : VaList) {its : List Item}
    {ap' : VaList} (nonnull : str ≠ 0) (matching : items (pieces fmt) ap = some (its, ap')) :
    ∃ out, putAll (store ⟨str, size, true⟩) ⟨0, []⟩ (its.flatMap Item.bufferText) = some out ∧
      (∀ entry ∈ out.stores, entry.1 < u64Sub size 1) ∧
      vsnprintf str size fmt ap = some (
        if size > 0 then
          out.stores ++ [(if out.pos < u64Sub size 1 then out.pos else u64Sub size 1, 0)]
        else out.stores, ap', wrapInt out.pos) := by
  have run := vsnprintf_items ⟨str, size, true⟩ fmt ⟨0, []⟩ ap
  simp only [matching, Option.bind_some] at run
  obtain ⟨out, fed, -, inside⟩ := putAll_below ⟨str, size, true⟩ ⟨0, []⟩
    (its.flatMap Item.bufferText) (by simp)
  refine ⟨out, fed, inside, ?_⟩
  rw [fed, Option.map_some] at run
  simp [vsnprintf, vsnprintfInternal, run, nonnull]

/-- At size 0 the first character is stored all the same. -/
theorem stores_at_zero {str : Nat} (nonnull : str ≠ 0) (c : UInt8) (rest : List UInt8)
    (fed : putAll (store ⟨str, 0, true⟩) ⟨0, []⟩ (c :: rest) = some out) : (0, c) ∈ out.stores := by
  have first : store ⟨str, 0, true⟩ ⟨0, []⟩ c = some ⟨1, [(0, c)]⟩ := by
    have last : u64Sub 0 1 = 18446744073709551615 := by decide
    have next : u64Add 0 1 = 1 := by decide
    simp [store, nonnull, last, next]
  have low : ∀ entry ∈ [(0, c)], entry.1 < u64Sub 0 1 := by
    rw [List.forall_mem_singleton]
    exact (by decide : 0 < u64Sub 0 1)
  obtain ⟨out', ran, longer, -⟩ := putAll_below ⟨str, 0, true⟩ ⟨1, [(0, c)]⟩ rest low
  rw [putAll_cons, first, Option.bind_some, ran] at fed
  cases fed
  exact longer.subset List.mem_cons_self

/-- snprintf and vsnprintf stay inside the buffer, and end it, exactly for a
positive size or when there is nothing to write. -/
theorem in_bounds_iff {str size : Nat} (nonnull : str ≠ 0) (fits : size < wordModulus)
    (fmt : CString) (ap : VaList) {its : List Item} {ap' : VaList}
    (matching : items (pieces fmt) ap = some (its, ap')) :
    ∃ stores n, vsnprintf str size fmt ap = some (stores, ap', n) ∧
      (∀ args, ap = ⟨args, []⟩ → snprintf str size fmt args = some (stores, ap', n)) ∧
      (InBounds size stores ↔ 1 ≤ size ∨ ∀ it ∈ its, Silent it) := by
  obtain ⟨out, fed, below, run⟩ := vsnprintf_stores size fmt ap nonnull matching
  refine ⟨_, _, run, ?_, ?_⟩
  · rintro args rfl
    exact run
  rw [← output_nil_iff]
  by_cases positive : size > 0
  · have last : u64Sub size 1 = size - 1 := u64Sub_of_le positive fits
    rw [last] at below ⊢
    rw [if_pos positive]
    refine iff_of_true ⟨?_, fun _ => ⟨_, ?_, List.getLast?_concat⟩⟩ (.inl positive)
    · rw [List.forall_mem_append]
      refine ⟨fun entry member => ?_, ?_⟩
      · have inside := below entry member
        omega
      · rw [List.forall_mem_singleton]
        split <;> omega
    · split <;> omega
  · obtain rfl : size = 0 := by omega
    rw [if_neg positive]
    cases output : its.flatMap Item.bufferText with
    | nil =>
      rw [output] at fed
      cases fed
      refine iff_of_true ⟨by simp, ?_⟩ (.inr rfl)
      omega
    | cons c rest =>
      rw [output] at fed
      have stored := stores_at_zero nonnull c rest fed
      refine iff_of_false (fun bounds => ?_) (by simp)
      exact absurd (bounds.inside _ stored) (Nat.not_lt_zero 0)

def letterFormat : CString := ⟨ascii "a", by decide, by decide⟩

/-- snprintf(buf, 1, "a") -/
theorem in_bounds_iff_one : ∃ stores n,
    snprintf 4096 1 letterFormat [] = some (stores, ⟨[], []⟩, n) ∧ InBounds 1 stores := by
  have matching : items (pieces letterFormat) ⟨[], []⟩ = some ([.literal 97], ⟨[], []⟩) := rfl
  have nonnull : 4096 ≠ 0 := by decide
  obtain ⟨stores, n, -, ran, bounds⟩ := in_bounds_iff nonnull (by decide : 1 < wordModulus)
    letterFormat ⟨[], []⟩ matching
  exact ⟨stores, n, ran [] rfl, bounds.mpr (.inl (Nat.le_refl 1))⟩

/-- snprintf(buf, 0, "a") stores at buf[0]. -/
theorem size_zero_overruns :
    snprintf 4096 0 letterFormat [] = some ([(0, 97)], ⟨[], []⟩, 1) ∧ ¬ InBounds 0 [(0, 97)] := by
  refine ⟨rfl, fun bounds => ?_⟩
  exact absurd (bounds.inside _ List.mem_cons_self) (Nat.not_lt_zero 0)

/-! ## Truncation -/

/-- Into a buffer of any positive size goes the text as far as it fits, then a
NUL. The value returned is the length of the whole text, with or without a
buffer, so a buffer of one more byte than measured takes all of it. -/
theorem vsnprintf_truncates (fmt : CString) (ap : VaList) {its : List Item} {ap' : VaList}
    (matching : items (pieces fmt) ap = some (its, ap')) (full : List UInt8)
    (output : its.flatMap Item.bufferText = full) (short : full.length ≤ 2147483647) :
    (∀ str size, str ≠ 0 → 1 ≤ size → size < wordModulus →
      vsnprintf str size fmt ap =
        some (indexed 0 (full.take (min full.length (size - 1)) ++ [0]), ap', (full.length : Int))) ∧
    vsnprintf 0 0 fmt ap = some ([], ap', (full.length : Int)) ∧
    ∀ str stores rest n, str ≠ 0 → vsnprintf 0 0 fmt ap = some (stores, rest, n) →
      vsnprintf str (n.toNat + 1) fmt ap = some (indexed 0 (full ++ [0]), ap', n) := by
  subst output
  have truncated := fun (str size : Nat) (nonnull : str ≠ 0) (positive : 1 ≤ size)
    (fits : size < wordModulus) => vsnprintfInternal_items fmt ap nonnull positive fits matching short
  have measured := vsnprintfInternal_measures 0 fmt ap matching short
  refine ⟨?_, measured, ?_⟩
  · intro str size nonnull positive fits
    rw [vsnprintf, truncated str size nonnull positive fits, List.take_eq_take_min,
      Nat.min_comm]
  · intro str stores rest n nonnull found
    rw [vsnprintf, measured] at found
    cases found
    rw [vsnprintf, Int.toNat_natCast, truncated str _ nonnull (Nat.le_add_left 1 _)
      (by unfold wordModulus; omega), Nat.add_sub_cancel, List.take_length]

def hexFormat : CString := ⟨ascii "<%4x>", by decide, by decide⟩

def fifteen : VaArg := ⟨15, CString.empty⟩

theorem vsnprintf_truncates_hex :
    vsnprintf 4096 4 hexFormat ⟨[fifteen], []⟩ =
        some (indexed 0 (ascii "<  " ++ [0]), ⟨[], [.unsignedInt]⟩, 6) ∧
      vsnprintf 0 0 hexFormat ⟨[fifteen], []⟩ = some ([], ⟨[], [.unsignedInt]⟩, 6) ∧
      vsnprintf 4096 7 hexFormat ⟨[fifteen], []⟩ =
        some (indexed 0 (ascii "<   f>" ++ [0]), ⟨[], [.unsignedInt]⟩, 6) := by
  obtain ⟨truncated, measured, whole⟩ := vsnprintf_truncates hexFormat ⟨[fifteen], []⟩ rfl
    (ascii "<   f>") rfl (by decide)
  exact ⟨truncated 4096 4 (by decide) (by decide) (by decide), measured,
    whole 4096 _ _ 6 (by decide) measured⟩

end AxiomeToolchain.Guarantees.BoundedFormatting
