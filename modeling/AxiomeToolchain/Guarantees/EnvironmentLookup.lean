import AxiomeToolchain.Source.Environment

/-!
# getenv finds the first entry with the key

The key of an entry is what stands before its first '=', its value what stands
behind; an entry without '=' has no key. Bytes behind the terminator of an entry
and slots behind the NULL of the array make no difference.
-/

set_option autoImplicit false

namespace AxiomeToolchain.Guarantees.EnvironmentLookup
open AxiomeToolchain.Library.LinearSearch
open AxiomeToolchain.Library.Prefixes
open AxiomeToolchain.Source.Stdio (CString ascii)
open AxiomeToolchain.Source.Environment

def keyOf (e : List UInt8) : Option (List UInt8) :=
  if equalsSign ∈ e then some (e.takeWhile (fun b => b ≠ equalsSign)) else none

def valueOf (e : List UInt8) : List UInt8 := (e.dropWhile (fun b => b ≠ equalsSign)).tail

/-- A string of the environment and what stands behind it in its object. -/
structure Entry where
  text : CString
  behind : List UInt8

def Entry.object (e : Entry) : List UInt8 := e.text.terminated ++ e.behind

/-- The array of the entries, its NULL and what stands behind that. -/
def array (entries : List Entry) (beyond : List (Option (List UInt8))) :
    List (Option (List UInt8)) :=
  entries.map (fun e => some e.object) ++ none :: beyond

/-- There is an i-th entry, and `name` is its key. -/
def HasKey (entries : List Entry) (name : CString) (i : Nat) : Prop :=
  ∃ e ∈ entries[i]?, keyOf e.text.bytes = some name.bytes

variable {name : CString} {entries : List Entry} {e value : List UInt8}

/-! ## Key and value -/

theorem split_plain (plain : equalsSign ∉ name.bytes) (value : List UInt8) :
    (name.bytes ++ equalsSign :: value).takeWhile (fun b => b ≠ equalsSign) = name.bytes ∧
      (name.bytes ++ equalsSign :: value).dropWhile (fun b => b ≠ equalsSign) =
        equalsSign :: value := by
  have before : ∀ b ∈ name.bytes, decide (b ≠ equalsSign) = true := by
    intro b member
    exact decide_eq_true (fun same => plain (same ▸ member))
  have ended : ∀ b ∈ (equalsSign :: value).head?, decide (b ≠ equalsSign) = false := by
    intro b head
    cases head
    decide
  exact ⟨takeWhile_run before ended, dropWhile_run before ended⟩

theorem keyOf_eq_iff (plain : equalsSign ∉ name.bytes) :
    keyOf e = some name.bytes ↔ ∃ value, e = name.bytes ++ equalsSign :: value := by
  constructor
  · intro key
    rw [keyOf] at key
    split at key
    · next member =>
      have parts := List.takeWhile_append_dropWhile (p := fun b => decide (b ≠ equalsSign)) (l := e)
      rw [Option.some.inj key] at parts
      cases rest : e.dropWhile (fun b => decide (b ≠ equalsSign)) with
      | nil =>
        rw [rest, List.append_nil] at parts
        exact absurd (parts ▸ member) plain
      | cons b value =>
        have stops := List.head?_dropWhile_not (fun b => decide (b ≠ equalsSign)) e
        rw [rest] at stops parts
        have same : b = equalsSign := by simpa using stops
        exact ⟨value, by rw [← parts, same]⟩
    · cases key
  · rintro ⟨value, rfl⟩
    rw [keyOf, if_pos (List.mem_append_right _ List.mem_cons_self), (split_plain plain value).1]

theorem valueOf_eq (plain : equalsSign ∉ name.bytes) (value : List UInt8) :
    valueOf (name.bytes ++ equalsSign :: value) = value := by
  rw [valueOf, (split_plain plain value).2, List.tail_cons]

/-! ## The search -/

theorem searchLoop_first (name : CString) (plain : equalsSign ∉ name.bytes) (entries : List Entry)
    (beyond : List (Option (List UInt8))) :
    ∃ r : Option Nat, searchLoop name.bytes (array entries beyond) =
        some (r.map (fun i => (i, name.bytes.length + 1))) ∧ First (HasKey entries name) r := by
  induction entries with
  | nil =>
    refine ⟨none, rfl, fun i ⟨e, found, _⟩ => ?_⟩
    cases found
  | cons e rest ih =>
    obtain ⟨found, run, decides⟩ := entryMatches_eq e.text.bytes e.behind name.nul_free
    rw [← keyOf_eq_iff plain] at decides
    have step : searchLoop name.bytes (array (e :: rest) beyond) =
        if found then some (some (0, name.bytes.length + 1))
        else (searchLoop name.bytes (array rest beyond)).map
          (Option.map (fun found => (found.1 + 1, found.2))) := by
      rw [array, List.map_cons, List.cons_append, searchLoop, Entry.object,
        CString.terminated_append, run, Option.bind_some]
      rfl
    rw [step]
    cases found with
    | true =>
      exact ⟨some 0, rfl, .here ⟨e, rfl, decides.mp rfl⟩⟩
    | false =>
      obtain ⟨r, later, first⟩ := ih
      refine ⟨r.map (· + 1), ?_, .later ?_ first⟩
      · rw [if_neg Bool.false_ne_true, later]
        cases r <;> rfl
      · rintro ⟨_, at_zero, key⟩
        cases at_zero
        exact absurd (decides.mpr key) Bool.false_ne_true

theorem getenv_search (slots : List (Option (List UInt8))) (name : CString) (after : List UInt8)
    (nonempty : name.bytes ≠ []) :
    getenv (some slots) (some (name.terminated ++ after)) = searchLoop name.bytes slots := by
  have length := nameLength_eq after name.nul_free
  have whole : (name.bytes ++ 0 :: after).take name.bytes.length = name.bytes := List.take_left
  obtain ⟨c, rest, shape⟩ := List.exists_cons_of_ne_nil nonempty
  have nonzero : c ≠ 0 := fun zero => name.nul_free (shape ▸ zero ▸ List.mem_cons_self)
  rw [CString.terminated_append]
  rw [shape, List.cons_append] at length whole ⊢
  rw [getenv, if_neg nonzero, length, Option.bind_some, whole]

/-- For every environment and every name that is not empty and has no '=':
getenv points to the value of the first entry with that key, and returns NULL
exactly if there is none. -/
theorem getenv_finds (entries : List Entry) (beyond : List (Option (List UInt8))) (name : CString)
    (after : List UInt8) (nonempty : name.bytes ≠ []) (plain : equalsSign ∉ name.bytes) :
    ∃ r, getenv (some (array entries beyond)) (some (name.terminated ++ after)) = some r ∧
      (r = none ↔ ∀ e ∈ entries, keyOf e.text.bytes ≠ some name.bytes) ∧
      ∀ i offset, r = some (i, offset) →
        (∃ e ∈ entries[i]?, keyOf e.text.bytes = some name.bytes ∧
          e.object.drop offset = valueOf e.text.bytes ++ 0 :: e.behind) ∧
        ∀ j, j < i → ∀ e ∈ entries[j]?, keyOf e.text.bytes ≠ some name.bytes := by
  obtain ⟨r, run, first⟩ := searchLoop_first name plain entries beyond
  refine ⟨_, (getenv_search _ name after nonempty).trans run, ?_, ?_⟩
  · rw [Option.map_eq_none_iff]
    constructor
    · rintro rfl e member key
      obtain ⟨i, at_i⟩ := List.mem_iff_getElem?.mp member
      exact first i ⟨e, at_i, key⟩
    · intro absent
      cases r with
      | none => rfl
      | some i =>
        obtain ⟨e, at_i, key⟩ := first.1
        exact absurd key (absent e (List.mem_of_getElem? at_i))
  · intro i offset found
    obtain ⟨i, rfl, same⟩ := Option.map_eq_some_iff.mp found
    cases same
    obtain ⟨⟨e, at_i, key⟩, earlier⟩ := first
    refine ⟨⟨e, at_i, key, ?_⟩, fun j less e' at_j key' => earlier j less ⟨e', at_j, key'⟩⟩
    obtain ⟨value, parts⟩ := (keyOf_eq_iff plain).mp key
    rw [Entry.object, CString.terminated_append, parts, valueOf_eq plain, List.append_assoc,
      ← List.drop_drop, List.drop_left]
    rfl

/-- A longer key, an entry without '=', and the key twice. -/
def exampleEntries : List Entry :=
  [⟨⟨ascii "PATHS=1", by decide, by decide⟩, []⟩, ⟨⟨ascii "PATH", by decide, by decide⟩, []⟩,
    ⟨⟨ascii "PATH=a=b", by decide, by decide⟩, []⟩, ⟨⟨ascii "PATH=c", by decide, by decide⟩, []⟩]

def exampleName : CString := ⟨ascii "PATH", by decide, by decide⟩

theorem getenv_finds_path :
    getenv (some (array exampleEntries [])) (some (exampleName.terminated ++ [])) = some (some (2, 5)) ∧
      ∀ j, j < 2 → ∀ e ∈ exampleEntries[j]?, keyOf e.text.bytes ≠ some exampleName.bytes := by
  obtain ⟨r, run, -, found⟩ :=
    getenv_finds exampleEntries [] exampleName [] (by decide) (by decide)
  have value : getenv (some (array exampleEntries [])) (some (exampleName.terminated ++ [])) =
      some (some (2, 5)) := by decide
  have same : r = some (2, 5) := Option.some.inj (run.symm.trans value)
  exact ⟨value, (found 2 5 same).2⟩

end AxiomeToolchain.Guarantees.EnvironmentLookup
