import AxiomeToolchain.Library.Segments
import AxiomeToolchain.Source.Stdio

/-!
# Spans and `strtok`

sdk/src/string.c:188-284. A pointer is an offset into one object; a
string is read as the bytes from its pointer to the end of the object. `none`
is a read past that end. A delimiter string is read before the call stores
anything.
-/

set_option autoImplicit false

namespace AxiomeToolchain.Source.StringToken
open AxiomeToolchain.Library.Segments
open AxiomeToolchain.Source.Stdio (CString)

/-- `while (*r) if (c == *r) { found = 1; break; }` -/
def inSet (c : UInt8) : List UInt8 → Option Bool
  | [] => none
  | r :: rest => if r = 0 then some false else if c = r then some true else inSet c rest

/-- `while (s[i])`, as long as being in the set is `member`. -/
def spanLoop (member : Bool) (set : List UInt8) : List UInt8 → Option Nat
  | [] => none
  | c :: rest =>
    if c = 0 then some 0
    else (inSet c set).bind (fun found =>
      if found = member then (spanLoop member set rest).map (· + 1) else some 0)

def strcspn (s reject : List UInt8) : Option Nat := spanLoop false reject s

def strspn (s accept : List UInt8) : Option Nat := spanLoop true accept s

/-- The inner loop returns `s` where the others set `found`; the inner `none` is NULL. -/
def strpbrk : List UInt8 → List UInt8 → Option (Option Nat)
  | [], _ => none
  | c :: s, accept =>
    if c = 0 then some none
    else (inSet c accept).bind (fun found =>
      if found then some (some 0) else (strpbrk s accept).map (Option.map (· + 1)))

/-- The object that the calls work on, and `strtok_saveptr`. -/
structure Tokenizer where
  memory : List UInt8
  saveptr : Option Nat

/-- The outer `none` is a read outside the object, the inner one NULL. -/
def strtok (st : Tokenizer) (str : Option Nat) (delim : CString) :
    Option (Tokenizer × Option Nat) :=
  let st := if str.isSome then { st with saveptr := str } else st
  match st.saveptr with
  | none => some (st, none)
  | some p =>
    (strspn (st.memory.drop p) delim.terminated).bind (fun skipped =>
      let token := p + skipped
      (st.memory[token]?).bind (fun c =>
        if c = 0 then some ({ st with saveptr := none }, none)
        else (strcspn (st.memory.drop token) delim.terminated).bind (fun len =>
          let stop := token + len
          (st.memory[stop]?).map (fun c =>
            if c ≠ 0 then
              ({ memory := st.memory.set stop 0, saveptr := some (stop + 1) }, some token)
            else ({ st with saveptr := none }, some token)))))

/-- One call after the other, with the pointers they return. -/
def strtokAll (st : Tokenizer) :
    List (Option Nat × CString) → Option (Tokenizer × List (Option Nat))
  | [] => some (st, [])
  | (str, delim) :: rest =>
    (strtok st str delim).bind (fun (st, token) =>
      (strtokAll st rest).map (fun (st, tokens) => (st, token :: tokens)))

/-! ## The spans -/

variable {c : UInt8} {d s : CString} {bytes after : List UInt8}

theorem inSet_eq (set after : List UInt8) (nul_free : (0 : UInt8) ∉ set) :
    inSet c (set ++ 0 :: after) = some (set.contains c) := by
  induction set with
  | nil => rfl
  | cons r rest ih =>
    rw [List.mem_cons, not_or] at nul_free
    rw [List.cons_append, inSet, if_neg (Ne.symm nul_free.1), List.contains_cons]
    by_cases same : c = r
    · rw [if_pos same, beq_iff_eq.mpr same, Bool.true_or]
    · rw [if_neg same, ih nul_free.2, beq_eq_false_iff_ne.mpr same, Bool.false_or]

theorem spanLoop_eq (member : Bool) (after' : List UInt8) (nul_free : (0 : UInt8) ∉ bytes) :
    spanLoop member (d.terminated ++ after') (bytes ++ 0 :: after) =
      some (bytes.takeWhile (fun a => d.bytes.contains a == member)).length := by
  induction bytes with
  | nil => rfl
  | cons a rest ih =>
    rw [List.mem_cons, not_or] at nul_free
    rw [List.cons_append, spanLoop, if_neg (Ne.symm nul_free.1), CString.terminated_append,
      inSet_eq d.bytes after' d.nul_free, Option.bind_some]
    by_cases goes : d.bytes.contains a = member
    · rw [if_pos goes, ← CString.terminated_append, ih nul_free.2, Option.map_some,
        List.takeWhile_cons_of_pos (p := fun a => d.bytes.contains a == member)
          (beq_iff_eq.mpr goes), List.length_cons]
    · rw [if_neg goes, List.takeWhile_cons_of_neg (by simpa using goes), List.length_nil]

/-- A byte of a token. -/
def outside (delim : CString) (a : UInt8) : Bool := !delim.bytes.contains a

theorem strcspn_eq (d : CString) (after : List UInt8) (nul_free : (0 : UInt8) ∉ bytes) :
    strcspn (bytes ++ 0 :: after) d.terminated = some (bytes.takeWhile (outside d)).length := by
  rw [strcspn, ← List.append_nil d.terminated, spanLoop_eq false [] nul_free]
  congr 3
  funext a
  unfold outside
  cases d.bytes.contains a <;> rfl

theorem strspn_eq (d : CString) (after : List UInt8) (nul_free : (0 : UInt8) ∉ bytes) :
    strspn (bytes ++ 0 :: after) d.terminated =
      some (bytes.takeWhile (fun a => !outside d a)).length := by
  rw [strspn, ← List.append_nil d.terminated, spanLoop_eq true [] nul_free]
  congr 3
  funext a
  unfold outside
  cases d.bytes.contains a <;> rfl

/-! ## One call -/

/-- At `base + pos` the object holds the string from `pos` on. -/
structure Placed (memory : List UInt8) (base : Nat) (s : CString) (after : List UInt8)
    (pos : Nat) : Prop where
  within : pos ≤ s.bytes.length
  stored : memory.drop (base + pos) = s.bytes.drop pos ++ 0 :: after

/-- What a call that returns this token leaves of the object. -/
def cut (memory : List UInt8) (base : Nat) (s : CString) (seg : Segment) : List UInt8 :=
  if seg.stop < s.bytes.length then memory.set (base + seg.stop) 0 else memory

variable {memory : List UInt8} {base pos i : Nat} {seg : Segment}

theorem CString.drop_nul_free (s : CString) (pos : Nat) : (0 : UInt8) ∉ s.bytes.drop pos :=
  fun member => s.nul_free (List.mem_of_mem_drop member)

theorem Placed.later (placed : Placed memory base s after pos) (low : pos ≤ i)
    (high : i ≤ s.bytes.length) : Placed memory base s after i := by
  obtain ⟨k, rfl⟩ := Nat.exists_eq_add_of_le low
  refine ⟨high, ?_⟩
  rw [← Nat.add_assoc, ← List.drop_drop, placed.stored, List.drop_append_of_le_length, List.drop_drop]
  rw [List.length_drop]
  omega

theorem Placed.byte (placed : Placed memory base s after pos) :
    memory[base + pos]? = s.terminated[pos]? := by
  have head := congrArg (fun l => l[0]?) placed.stored
  rw [List.getElem?_drop, Nat.add_zero] at head
  rw [head]
  rcases Nat.eq_or_lt_of_le placed.within with whole | inside
  · rw [whole, List.drop_length, CString.terminated, List.getElem?_append_right (Nat.le_refl _),
      Nat.sub_self]
    rfl
  · rw [CString.terminated, List.getElem?_append_left inside, List.getElem?_append_left,
      List.getElem?_drop, Nat.add_zero]
    rw [List.length_drop]
    omega

theorem terminated_get (inside : i < s.bytes.length) :
    ∃ c ∈ s.terminated[i]?, c ≠ 0 := by
  refine ⟨s.bytes[i], ?_, ?_⟩
  · rw [CString.terminated, List.getElem?_append_left inside]
    exact List.getElem?_eq_getElem inside
  · intro zero
    exact s.nul_free (zero ▸ List.getElem_mem inside)

theorem terminated_last : s.terminated[s.bytes.length]? = some 0 := by
  rw [CString.terminated, List.getElem?_append_right (Nat.le_refl _), Nat.sub_self]
  rfl

theorem Placed.cut (placed : Placed memory base s after pos) (low : pos ≤ seg.stop)
    (more : seg.stop < s.bytes.length) :
    Placed (cut memory base s seg) base s after (seg.stop + 1) := by
  refine ⟨more, ?_⟩
  rw [StringToken.cut, if_pos more, List.drop_set_of_lt (by omega)]
  exact (placed.later (by omega) more).stored

/-- What a call that goes on at `pos` does. -/
theorem strtok_cases (placed : Placed memory base s after pos) (d : CString) :
    (∃ seg, Next (outside d) s.bytes pos seg ∧
      strtok ⟨memory, some (base + pos)⟩ none d =
        some (⟨cut memory base s seg, (resume s.bytes seg).map (base + ·)⟩,
          some (base + seg.start))) ∨
    (Exhausted (outside d) s.bytes pos ∧
      strtok ⟨memory, some (base + pos)⟩ none d = some (⟨memory, none⟩, none)) := by
  have skip := strspn_eq d after (CString.drop_nul_free s pos)
  rw [← placed.stored] at skip
  rcases next_cases (outside d) s.bytes placed.within with ⟨seg, found, next⟩ | ⟨none, empty⟩
  · refine .inl ⟨seg, next, ?_⟩
    obtain ⟨start_eq, stop_eq⟩ := next_eq_some found
    have at_start := placed.later next.after (Nat.le_of_lt next.first.lt_length)
    have at_stop := at_start.later (Nat.le_of_lt next.nonempty) next.within
    obtain ⟨c, first, nonzero⟩ := terminated_get (s := s) next.first.lt_length
    have scan := strcspn_eq d after (CString.drop_nul_free s seg.start)
    rw [← at_start.stored] at scan
    simp only [strtok, Option.isSome_none, Bool.false_eq_true, if_false, skip, Option.bind_some]
    rw [Nat.add_assoc, ← start_eq, at_start.byte, Option.mem_def.mp first, Option.bind_some,
      if_neg nonzero, scan, Option.bind_some, Nat.add_assoc, ← stop_eq, at_stop.byte]
    by_cases more : seg.stop < s.bytes.length
    · obtain ⟨e, last, nonzero⟩ := terminated_get more
      rw [Option.mem_def.mp last, Option.map_some, if_pos nonzero, cut, if_pos more, resume,
        if_pos more, Option.map_some, Nat.add_assoc]
    · have whole : seg.stop = s.bytes.length := Nat.le_antisymm next.within (Nat.not_lt.mp more)
      rw [whole, terminated_last, Option.map_some, if_neg (by simp), cut, if_neg more, resume,
        if_neg more, Option.map_none]
  · refine .inr ⟨empty, ?_⟩
    have start_eq := next_eq_none placed.within none
    have at_end := placed.later (placed.within) (Nat.le_refl _)
    simp only [strtok, Option.isSome_none, Bool.false_eq_true, if_false, skip, Option.bind_some]
    rw [Nat.add_assoc, start_eq, at_end.byte, terminated_last, Option.bind_some, if_pos rfl]

theorem strtokAll_cons {st st₁ st₂ : Tokenizer} {str token : Option Nat}
    {rest : List (Option Nat × CString)} {tokens : List (Option Nat)}
    (call : strtok st str d = some (st₁, token)) (run : strtokAll st₁ rest = some (st₂, tokens)) :
    strtokAll st ((str, d) :: rest) = some (st₂, token :: tokens) := by
  rw [strtokAll, call, Option.bind_some]
  change (strtokAll st₁ rest).map _ = _
  rw [run, Option.map_some]

end AxiomeToolchain.Source.StringToken
