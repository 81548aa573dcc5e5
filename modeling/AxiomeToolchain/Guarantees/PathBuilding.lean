import AxiomeToolchain.Guarantees.TokenRuns
import AxiomeToolchain.Source.PathMemory

/-!
# Building a path in one buffer and taking it apart again

ax_join_path of a directory and a first name, then of the buffer itself and each
further name, and strtok with "/" on the result. Each call leaves the cut of the
path so far, so the buffer ends with the cut of the whole path; if nothing was
cut, the tokens are the components of the directory and the names, in order.
-/

set_option autoImplicit false

namespace AxiomeToolchain.Guarantees.PathBuilding
open AxiomeToolchain.Library.ByteMemory
open AxiomeToolchain.Library.CInt
open AxiomeToolchain.Library.Segments
open AxiomeToolchain.Library.Separated
open AxiomeToolchain.Library.TerminatedString
open AxiomeToolchain.Source.PathMemory
open AxiomeToolchain.Source.Stdio (CString ascii)
open AxiomeToolchain.Source.StringToken
open AxiomeToolchain.Source.Util (slash)
open AxiomeToolchain.Guarantees.TokenRuns (Marked strtokAll_resumed)

/-! ## Joining into the buffer -/

/-- `ax_join_path(out, name, out, cap)` for each name. -/
def joinAll (m : Memory) (out cap : Nat) : List Nat → Memory
  | [] => m
  | name :: rest => joinAll (axJoinPath m out name out cap) out cap rest

/-- `ax_join_path(dir, name, out, cap)`, and then the rest. -/
def build (m : Memory) (dir out cap name : Nat) (rest : List Nat) : Memory :=
  joinAll (axJoinPath m dir name out cap) out cap rest

def pathOf (dir : List UInt8) (names : List CString) : List UInt8 :=
  names.foldl (fun path name => join slash path name.bytes) dir

/-- A name outside the buffer. -/
structure Given (m : Memory) (out cap : Nat) (name : Nat) (text : CString) : Prop where
  held : StringAt m name text.bytes
  apart : Apart out cap name text.bytes

variable {m m' : Memory} {out cap name : Nat} {text : CString} {names : List Nat}
  {texts : List CString} {path : List UInt8}

theorem Given.congr (same : ∀ x, x < out ∨ out + cap ≤ x → m' x = m x) (name : Nat) (text : CString)
    (given : Given m out cap name text) : Given m' out cap name text := by
  refine ⟨given.held.congr fun x low high => same x ?_, given.apart⟩
  have apart := given.apart
  unfold Apart at apart
  omega

/-- The buffer holds the cut of the path so far. -/
theorem joinAll_exact (positive : 1 ≤ cap) (given : List.Forall₂ (Given m out cap) names texts)
    (held : StringAt m out (path.take (cap - 1))) :
    StringAt (joinAll m out cap names) out ((pathOf path texts).take (cap - 1)) ∧
      ∀ x, x < out ∨ out + cap ≤ x → joinAll m out cap names x = m x := by
  induction names generalizing m path texts with
  | nil =>
    cases given
    exact ⟨held, fun _ _ => rfl⟩
  | cons name names ih =>
    obtain ⟨text, later, first, rest, rfl⟩ := List.forall₂_cons_left_iff.mp given
    -- the call sees the cut of the path, and leaves the cut of the longer one
    obtain ⟨joined, frame⟩ := axJoinPath_string positive held (.inl (Nat.le_refl out)) first.held
      first.apart
    rw [take_join] at joined
    obtain ⟨built, frame'⟩ := ih (rest.imp (Given.congr frame)) joined
    exact ⟨built, fun x outside => (frame' x outside).trans (frame x outside)⟩

/-! ## Components -/

/-- The delimiters for strtok. -/
def slashes : CString := ⟨[slash], by decide, by decide⟩

/-- The nonempty parts between slashes. -/
def parts (path : List UInt8) : List (List UInt8) := components (outside slashes) path

theorem parts_pathOf (path : List UInt8) (texts : List CString) :
    parts (pathOf path texts) = parts path ++ texts.flatMap (fun text => parts text.bytes) := by
  induction texts generalizing path with
  | nil => rw [List.flatMap_nil, List.append_nil]; rfl
  | cons text texts ih =>
    have joined : parts (join slash path text.bytes) = parts path ++ parts text.bytes :=
      components_join (by decide) path text.bytes
    rw [List.flatMap_cons, ← List.append_assoc, ← joined]
    exact ih (join slash path text.bytes)

/-- A directory in front of a path is the first directory of that path. -/
theorem pathOf_join (dir path : List UInt8) (texts : List CString) :
    pathOf (join slash dir path) texts = join slash dir (pathOf path texts) := by
  induction texts generalizing path with
  | nil => rfl
  | cons text texts ih =>
    rw [pathOf, pathOf, List.foldl_cons, List.foldl_cons, join_assoc]
    exact ih (join slash path text.bytes)

/-! ## Tokens -/

/-- The pointer leads to the string; `none` is NULL and no string. -/
def PointsTo (object : List UInt8) : Option Nat → Option (List UInt8) → Prop :=
  Option.Rel (fun p part => ∃ behind, object.drop p = part ++ 0 :: behind)

variable {s : CString} {original object : List UInt8} {seg : Segment}
  {found : List (Option Segment)}

/-- A token that was found is a string in what the calls leave. -/
theorem token_string (marked : Marked original object 0 s found) (member : some seg ∈ found)
    (within : seg.stop ≤ s.bytes.length) (nonempty : seg.start < seg.stop) :
    ∃ behind, object.drop seg.start = slice s.bytes seg ++ 0 :: behind := by
  have length := slice_length within
  refine ⟨object.drop (seg.stop + 1), List.ext_getElem? fun i => ?_⟩
  rw [List.getElem?_drop]
  rcases Nat.lt_trichotomy i (seg.stop - seg.start) with inside | at_end | behind
  · have kept := marked.text seg member (seg.start + i) (by omega) (by omega)
    rw [Nat.zero_add] at kept
    rw [List.getElem?_append_left (by omega), slice_get inside, kept]
  · have ended := marked.ended seg member
    rw [Nat.zero_add] at ended
    rw [List.getElem?_append_right (by omega), length, at_end, Nat.sub_self,
      Nat.add_sub_cancel' (Nat.le_of_lt nonempty), ended]
    rfl
  · obtain ⟨k, rfl⟩ := Nat.exists_eq_add_of_lt behind
    have place : seg.stop - seg.start + k + 1 - (seg.stop - seg.start) = k + 1 := by omega
    rw [List.getElem?_append_right (by omega), length, place, List.getElem?_cons_succ,
      List.getElem?_drop]
    congr 1
    omega

/-- The calls return the components one after the other, and then NULL. -/
theorem strtokAll_components (s d : CString) (after : List UInt8) (saveptr : Option Nat) (n : Nat) :
    ∃ st' pointers,
      strtokAll ⟨s.terminated ++ after, saveptr⟩
        ((some 0, d) :: List.replicate n (none, d)) = some (st', pointers) ∧
      List.Forall₂ (PointsTo st'.memory) pointers
        ((List.range (n + 1)).map (fun k => (components (outside d) s.bytes)[k]?)) := by
  have placed : Placed (s.terminated ++ after) 0 s after 0 := by
    refine ⟨Nat.zero_le _, ?_⟩
    rw [Nat.add_zero, List.drop_zero, List.drop_zero, CString.terminated_append]
  have start : ∀ p ∈ some 0, Placed (s.terminated ++ after) 0 s after p :=
    fun p zero => Option.some.inj zero ▸ placed
  obtain ⟨st', found, run, resumed, marked⟩ :=
    strtokAll_resumed (List.replicate (n + 1) d) _ (some 0) start
  rw [List.map_replicate] at resumed run
  have runs := resumed.segments
  refine ⟨st', _, run, ?_⟩
  rw [runs, List.map_map, List.forall₂_map_left_iff, List.forall₂_map_right_iff, List.forall₂_same]
  intro k low
  rw [Function.comp_apply, ← segments_slice, List.getElem?_map]
  cases at_k : (segments (outside d) s.bytes)[k]? with
  | none => exact Option.Rel.none
  | some seg =>
    have maximal := ((segments_enumerates (outside d) s.bytes).maximal seg).mp
      (List.mem_of_getElem? at_k)
    have member : some seg ∈ found := by
      rw [runs, ← at_k]
      exact List.mem_map_of_mem low
    have string := token_string marked member maximal.within maximal.nonempty
    rw [← Nat.zero_add seg.start] at string
    exact Option.Rel.some string

/-- For every directory and every list of names outside the buffer: it holds the
first cap - 1 bytes of the path, nothing outside has changed, and joining the
directory to the path of the names alone would give the same. If nothing was
cut, strtok returns the components of the directory and of each name, in order,
and then NULL. -/
theorem path_built (m : Memory) (dir out cap name : Nat) (names : List Nat) (d text : CString)
    (texts : List CString) (positive : 1 ≤ cap) (size : cap < wordModulus)
    (held : StringAt m dir d.bytes) (ahead : out ≤ dir ∨ dir + d.bytes.length < out)
    (first : Given m out cap name text) (rest : List.Forall₂ (Given m out cap) names texts) :
    StringAt (build m dir out cap name names) out
        ((pathOf d.bytes (text :: texts)).take (cap - 1)) ∧
      (∀ x, x < out ∨ out + cap ≤ x → build m dir out cap name names x = m x) ∧
      (∀ (m' : Memory) (dir' relative : Nat), StringAt m' dir' d.bytes →
        (out ≤ dir' ∨ dir' + d.bytes.length < out) →
        StringAt m' relative (pathOf text.bytes texts) →
        Apart out cap relative (pathOf text.bytes texts) →
          StringAt (axJoinPath m' dir' relative out cap) out
            ((pathOf d.bytes (text :: texts)).take (cap - 1))) ∧
      ((pathOf d.bytes (text :: texts)).length < cap → ∀ (saveptr : Option Nat) (n : Nat),
        ∃ st' pointers,
          strtokAll ⟨bytesAt (build m dir out cap name names) out cap, saveptr⟩
            ((some 0, slashes) :: List.replicate n (none, slashes)) = some (st', pointers) ∧
          List.Forall₂ (PointsTo st'.memory) pointers ((List.range (n + 1)).map (fun k =>
            (parts d.bytes ++ (text :: texts).flatMap (fun text => parts text.bytes))[k]?))) := by
  obtain ⟨joined, frame⟩ := axJoinPath_string positive held ahead first.held first.apart
  obtain ⟨built, frame'⟩ := joinAll_exact positive (rest.imp (Given.congr frame)) joined
  have whole : pathOf d.bytes (text :: texts) = join slash d.bytes (pathOf text.bytes texts) :=
    pathOf_join d.bytes text.bytes texts
  refine ⟨built, fun x outside => (frame' x outside).trans (frame x outside), ?_, ?_⟩
  · intro m' dir' relative held' ahead' named apart
    rw [whole]
    exact (axJoinPath_string positive held' ahead' named apart).1
  · intro uncut saveptr n
    have string : StringAt (build m dir out cap name names) out
        (pathOf d.bytes (text :: texts)) := by
      rw [← List.take_of_length_le (Nat.le_sub_one_of_lt uncut)]
      exact built
    obtain ⟨more, room⟩ := Nat.exists_eq_add_of_le (Nat.succ_le_of_lt uncut)
    generalize build m dir out cap name names = done at string ⊢
    rw [room, bytesAt_add, string.block, ← parts_pathOf]
    exact strtokAll_components ⟨_, string.nul_free, by omega⟩ slashes _ saveptr n

/-! ## "/etc", "rc" and "d/" -/

def directory : CString := ⟨ascii "/etc", by decide, by decide⟩

def rcName : CString := ⟨ascii "rc", by decide, by decide⟩

def dName : CString := ⟨ascii "d/", by decide, by decide⟩

def namesMemory : Memory :=
  writeBytes (writeBytes (writeBytes (fun _ => 0) 16 directory.bytes) 32 rcName.bytes) 48
    dName.bytes

theorem path_built_etc : ∃ st' pointers,
    strtokAll ⟨bytesAt (build namesMemory 16 64 16 32 [48]) 64 16, none⟩
        [(some 0, slashes), (none, slashes), (none, slashes), (none, slashes)] =
      some (st', pointers) ∧
    List.Forall₂ (PointsTo st'.memory) pointers
      [some (ascii "etc"), some rcName.bytes, some (ascii "d"), none] := by
  have held : StringAt namesMemory 16 directory.bytes := ⟨by decide, by decide, by decide⟩
  have first : Given namesMemory 64 16 32 rcName :=
    ⟨⟨by decide, by decide, by decide⟩, .inl (by decide)⟩
  have second : Given namesMemory 64 16 48 dName :=
    ⟨⟨by decide, by decide, by decide⟩, .inl (by decide)⟩
  obtain ⟨-, -, -, tokens⟩ := path_built namesMemory 16 64 16 32 [48] directory rcName [dName]
    (by decide) (by decide) held (.inr (by decide)) first (.cons second .nil)
  obtain ⟨st', pointers, run, each⟩ := tokens (by decide) none 3
  have listed : (List.range 4).map (fun k =>
      (parts directory.bytes ++ [rcName, dName].flatMap (fun text => parts text.bytes))[k]?) =
        [some (ascii "etc"), some rcName.bytes, some (ascii "d"), none] := by decide
  exact ⟨st', pointers, run, listed ▸ each⟩

end AxiomeToolchain.Guarantees.PathBuilding
