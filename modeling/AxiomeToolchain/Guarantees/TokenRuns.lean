import AxiomeToolchain.Source.StringToken

/-!
# strtok enumerates tokens

A first call with a string and then calls with NULL find the runs of bytes that
are not delimiters, one after the other. All they store is the NUL behind each
token.
-/

set_option autoImplicit false

namespace AxiomeToolchain.Guarantees.TokenRuns
open AxiomeToolchain.Library.Segments
open AxiomeToolchain.Source.Stdio (CString)
open AxiomeToolchain.Source.StringToken

variable {memory memory' original : List UInt8} {base i : Nat} {s : CString} {pos : Option Nat}
  {seg : Segment} {found : List (Option Segment)} {after : List UInt8}

/-- What the calls left of the object: each token found is a NUL-terminated
string at its place in `s`, and no other byte has changed. -/
structure Marked (original memory : List UInt8) (base : Nat) (s : CString)
    (found : List (Option Segment)) : Prop where
  text : ∀ seg, some seg ∈ found → ∀ i, seg.start ≤ i → i < seg.stop →
    memory[base + i]? = s.bytes[i]?
  ended : ∀ seg, some seg ∈ found → memory[base + seg.stop]? = some 0
  kept : ∀ i, (∀ seg, some seg ∈ found → seg.stop < s.bytes.length → i ≠ base + seg.stop) →
    memory[i]? = original[i]?

theorem Marked.refl (memory : List UInt8) (base : Nat) (s : CString) :
    Marked memory memory base s [] where
  text _ member := absurd member List.not_mem_nil
  ended _ member := absurd member List.not_mem_nil
  kept _ _ := rfl

theorem Marked.skip (marked : Marked original memory base s found) :
    Marked original memory base s (none :: found) where
  text seg member := marked.text seg (by simpa using member)
  ended seg member := marked.ended seg (by simpa using member)
  kept i clear := marked.kept i (fun seg member => clear seg (List.mem_cons_of_mem _ member))

theorem cut_other (other : seg.stop < s.bytes.length → i ≠ base + seg.stop) :
    (cut memory base s seg)[i]? = memory[i]? := by
  unfold cut
  split
  · next more => exact List.getElem?_set_ne (Ne.symm (other more))
  · rfl

theorem Placed.bytes {start : Nat} (placed : Placed memory base s after start)
    (low : start ≤ i) (high : i < s.bytes.length) : memory[base + i]? = s.bytes[i]? := by
  rw [(placed.later low (Nat.le_of_lt high)).byte, CString.terminated,
    List.getElem?_append_left high]

theorem cut_ended {start : Nat} (placed : Placed memory base s after start)
    (low : start ≤ seg.stop) (within : seg.stop ≤ s.bytes.length) :
    (cut memory base s seg)[base + seg.stop]? = some 0 := by
  have at_stop := (placed.later low within).byte
  unfold cut
  split
  · next more =>
    obtain ⟨c, there, -⟩ := terminated_get more
    have inObject : base + seg.stop < memory.length :=
      (List.getElem?_eq_some_iff.mp (at_stop.trans (Option.mem_def.mp there))).1
    exact List.getElem?_set_self inObject
  · next whole =>
    rw [at_stop, Nat.le_antisymm within (Nat.not_lt.mp whole)]
    exact terminated_last

/-- A token in front of all those found later. -/
theorem Marked.cons {start : Nat} {inside : UInt8 → Bool}
    (placed : Placed memory base s after start) (next : Next inside s.bytes start seg)
    (later : ∀ other, some other ∈ found → seg.stop < other.stop)
    (marked : Marked (cut memory base s seg) memory' base s found) :
    Marked memory memory' base s (some seg :: found) := by
  have upTo : ∀ i, i ≤ seg.stop → memory'[base + i]? = (cut memory base s seg)[base + i]? := by
    intro i le
    apply marked.kept
    intro other member _ same
    have behind := later other member
    omega
  constructor
  · intro other member i low high
    rw [List.mem_cons, Option.some_inj] at member
    rcases member with rfl | member
    · have inString := Nat.lt_of_lt_of_le high next.within
      rw [upTo i (Nat.le_of_lt high), cut_other (fun _ => by omega)]
      exact Placed.bytes placed (next.after.trans low) inString
    · exact marked.text other member i low high
  · intro other member
    rw [List.mem_cons, Option.some_inj] at member
    rcases member with rfl | member
    · rw [upTo _ (Nat.le_refl _)]
      exact cut_ended placed (next.after.trans (Nat.le_of_lt next.nonempty)) next.within
    · exact marked.ended other member
  · intro i clear
    rw [marked.kept i (fun other member => clear other (List.mem_cons_of_mem _ member))]
    exact cut_other (clear seg List.mem_cons_self)

theorem strtokAll_resumed (calls : List CString) (memory : List UInt8) (pos : Option Nat)
    (placed : ∀ p ∈ pos, Placed memory base s after p) :
    ∃ st' found,
      strtokAll ⟨memory, pos.map (base + ·)⟩ (calls.map (fun d => (none, d))) =
        some (st', found.map (Option.map (fun seg => base + seg.start))) ∧
      Resumed s.bytes pos (calls.map outside) found ∧
      Marked memory st'.memory base s found := by
  induction calls generalizing memory pos with
  | nil => exact ⟨_, [], rfl, .nil pos, .refl memory base s⟩
  | cons d rest ih =>
    rw [List.map_cons, List.map_cons]
    cases pos with
    | none =>
      obtain ⟨st', found, run, resumed, marked⟩ := ih memory none (by simp)
      refine ⟨st', none :: found, ?_, .finished resumed, marked.skip⟩
      exact strtokAll_cons rfl run
    | some p =>
      have here := placed p rfl
      rcases strtok_cases here d with ⟨seg, next, call⟩ | ⟨empty, call⟩
      · have ahead : ∀ p ∈ resume s.bytes seg,
            Placed (cut memory base s seg) base s after p := by
          intro q behind
          obtain ⟨more, rfl⟩ := mem_resume.mp behind
          exact here.cut (next.after.trans (Nat.le_of_lt next.nonempty)) more
        obtain ⟨st', found, run, resumed, marked⟩ := ih _ _ ahead
        refine ⟨st', some seg :: found, ?_, .found next resumed, ?_⟩
        · exact strtokAll_cons call run
        · apply Marked.cons here next _ marked
          intro other member
          obtain ⟨q, behind, start, nonempty⟩ := resumed.after member
          rw [mem_resume] at behind
          omega
      · obtain ⟨st', found, run, resumed, marked⟩ := ih memory none (by simp)
        refine ⟨st', none :: found, ?_, .exhausted empty resumed, marked.skip⟩
        exact strtokAll_cons call run

theorem strtok_enumerates (before after : List UInt8) (s first : CString) (rest : List CString)
    (saveptr : Option Nat) :
    ∃ st' found,
      strtokAll ⟨before ++ s.terminated ++ after, saveptr⟩
          ((some before.length, first) :: rest.map (fun d => (none, d))) =
        some (st', found.map (Option.map (fun seg => before.length + seg.start))) ∧
      Resumed s.bytes (some 0) ((first :: rest).map outside) found ∧
      Marked (before ++ s.terminated ++ after) st'.memory before.length s found ∧
      ∃ runs, Enumerates (outside first) s.bytes runs ∧
        ∀ n, rest = List.replicate n first →
          found = (List.range (n + 1)).map (fun k => runs[k]?) := by
  have placed : Placed (before ++ s.terminated ++ after) before.length s after 0 := by
    refine ⟨Nat.zero_le _, ?_⟩
    rw [Nat.add_zero, List.append_assoc, List.drop_left, CString.terminated, List.append_assoc,
      List.drop_zero, List.singleton_append]
  obtain ⟨st', found, run, resumed, marked⟩ :=
    strtokAll_resumed (first :: rest) _ (some 0) (fun p zero => Option.some.inj zero ▸ placed)
  refine ⟨st', found, run, resumed, marked, _, segments_enumerates _ s.bytes, ?_⟩
  intro n same
  apply Resumed.segments
  rw [same, ← List.replicate_succ, List.map_replicate] at resumed
  exact resumed

end AxiomeToolchain.Guarantees.TokenRuns
