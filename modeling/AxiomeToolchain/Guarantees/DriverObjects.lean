import AxiomeToolchain.Guarantees.DriverRouting

/-!
# Each source its own object

Both drivers name an object after the last component of its source's path. The
files are followed through the compiles of a run: one that succeeds leaves the
code of its source in its object, one that fails leaves nothing of use there.
-/

set_option autoImplicit false

namespace AxiomeToolchain.Guarantees.DriverObjects
open AxiomeToolchain.Source.Driver
open AxiomeToolchain.Source.DriverRuns
open AxiomeToolchain.Guarantees.DriverRouting

/-- The source whose code each file holds, after commands from the n-th on. -/
def filesAfter (host : Host) : Nat → List Compile → (Token → Option Token) → Token → Option Token
  | _, [], files => files
  | n, c :: rest, files =>
    filesAfter host (n + 1) rest
      (Function.update files c.object (if host.status n = 0 then some c.source else none))

/-- The object paths differ; when the run gets to the link, the linker is handed
for each source a file of its own with the code of that source. -/
structure OwnObjects (host : Host) (args : List Token) (build : Build) : Prop where
  paths : ((cFiles args).map (objectPath host)).Nodup
  linked : ∀ link ∈ build.link, ∃ objs, link.objects = oFiles args ++ objs ∧ objs.Nodup ∧
    ∀ files, List.Forall₂ (fun src obj => filesAfter host 0 build.compiles files obj = some src)
      (cFiles args) objs

/-- The same characters, but that `.c` may stand for `.o` and the reverse. -/
inductive Lookalike : Token → Token → Prop
  | nil : Lookalike [] []
  | cons (ch : Char) {x y : Token} (rest : Lookalike x y) : Lookalike (ch :: x) (ch :: y)
  | dot {c d : Char} {x y : Token} (left : c = 'c' ∨ c = 'o') (right : d = 'c' ∨ d = 'o')
      (rest : Lookalike x y) : Lookalike ('.' :: c :: x) ('.' :: d :: y)

/-- No two sources have last path components that look alike. -/
def NamesApart (args : List Token) : Prop :=
  ∀ a ∈ cFiles args, ∀ b ∈ cFiles args, Lookalike (basename a) (basename b) → a = b

variable {host : Host} {args : List Token} {x y : Token}

/-! ## Names of objects -/

theorem replaceDotC_cons {ch : Char} (other : ch ≠ '.' ∨ x.head? ≠ some 'c') :
    replaceDotC (ch :: x) = ch :: replaceDotC x := by
  rw [replaceDotC]
  rintro rest rfl rfl
  rcases other with no | no <;> exact no rfl

theorem replaceDotC_dot {c : Char} (ext : c = 'c' ∨ c = 'o') (x : Token) :
    replaceDotC ('.' :: c :: x) = '.' :: 'o' :: replaceDotC x := by
  rcases ext with rfl | rfl
  · rfl
  · rw [replaceDotC_cons (.inr (by simp)), replaceDotC_cons (.inl (by decide))]

theorem replaceDotC_head (x : Token) : (replaceDotC x).head? = x.head? := by
  fun_cases replaceDotC x <;> rfl

/-- A letter that starts the replaced text has not been replaced. -/
theorem replaceDotC_eq_cons {ch : Char} {z : Token} (letter : ch ≠ '.')
    (same : replaceDotC x = ch :: z) : ∃ rest, x = ch :: rest ∧ replaceDotC rest = z := by
  have head := replaceDotC_head x
  rw [same] at head
  cases x with
  | nil => cases head
  | cons first rest =>
    obtain rfl : ch = first := Option.some.inj head
    rw [replaceDotC_cons (.inl letter)] at same
    exact ⟨rest, rfl, (List.cons.inj same).2⟩

theorem Lookalike.same_object (alike : Lookalike x y) : replaceDotC x = replaceDotC y := by
  induction alike with
  | nil => rfl
  | @cons ch x y rest ih =>
    have heads : x.head? = y.head? := by rw [← replaceDotC_head, ih, replaceDotC_head]
    by_cases dotC : ch = '.' ∧ x.head? = some 'c'
    · obtain ⟨rfl, head⟩ := dotC
      obtain ⟨x', rfl⟩ := List.head?_eq_some_iff.mp head
      obtain ⟨y', rfl⟩ := List.head?_eq_some_iff.mp (heads ▸ head)
      have letter : 'c' ≠ '.' := by decide
      rw [replaceDotC_cons (.inl letter), replaceDotC_cons (.inl letter)] at ih
      rw [replaceDotC_dot (.inl rfl), replaceDotC_dot (.inl rfl), (List.cons.inj ih).2]
    · have other := not_and_or.mp dotC
      rw [replaceDotC_cons other, replaceDotC_cons (heads ▸ other), ih]
  | dot left right rest ih => rw [replaceDotC_dot left, replaceDotC_dot right, ih]

theorem Lookalike.of_same_object (same : replaceDotC x = replaceDotC y) : Lookalike x y := by
  have letter : 'o' ≠ '.' := by decide
  induction x using replaceDotC.induct generalizing y with
  | case1 rest ih =>
    rw [replaceDotC] at same
    have head := replaceDotC_head y
    rw [← same] at head
    obtain ⟨y', rfl⟩ := List.head?_eq_some_iff.mp head.symm
    by_cases dotC : y'.head? = some 'c'
    · obtain ⟨y'', rfl⟩ := List.head?_eq_some_iff.mp dotC
      rw [replaceDotC_dot (.inl rfl)] at same
      exact .dot (.inl rfl) (.inl rfl) (ih (by simpa using same))
    · rw [replaceDotC_cons (.inr dotC)] at same
      obtain ⟨y'', rfl, inner⟩ := replaceDotC_eq_cons letter (List.cons.inj same).2.symm
      exact .dot (.inl rfl) (.inr rfl) (ih inner.symm)
  | case2 ch rest other ih =>
    have plain : ch ≠ '.' ∨ rest.head? ≠ some 'c' := by
      rw [← not_and_or]
      rintro ⟨rfl, head⟩
      obtain ⟨x', rfl⟩ := List.head?_eq_some_iff.mp head
      exact other x' rfl rfl
    rw [replaceDotC_cons plain] at same
    have head := replaceDotC_head y
    rw [← same] at head
    obtain ⟨y', rfl⟩ := List.head?_eq_some_iff.mp head.symm
    by_cases dotC : ch = '.' ∧ y'.head? = some 'c'
    · obtain ⟨rfl, isC⟩ := dotC
      obtain ⟨y'', rfl⟩ := List.head?_eq_some_iff.mp isC
      rw [replaceDotC_dot (.inl rfl)] at same
      have shifted : replaceDotC rest = replaceDotC ('o' :: y'') := by
        rw [(List.cons.inj same).2, replaceDotC_cons (.inl letter)]
      cases ih shifted with
      | cons _ inner => exact .dot (.inr rfl) (.inl rfl) inner
    · rw [replaceDotC_cons (not_and_or.mp dotC)] at same
      exact .cons ch (ih (List.cons.inj same).2)
  | case3 =>
    have head := replaceDotC_head y
    rw [← same] at head
    rw [List.head?_eq_none_iff.mp head.symm]
    exact .nil

theorem lookalike_iff : Lookalike x y ↔ replaceDotC x = replaceDotC y :=
  ⟨Lookalike.same_object, Lookalike.of_same_object⟩

theorem objectPath_eq_iff {a b : Token} :
    objectPath host a = objectPath host b ↔ Lookalike (basename a) (basename b) := by
  rw [objectPath, objectPath, List.append_cancel_left_eq, lookalike_iff]

theorem paths_iff (distinct : (cFiles args).Nodup) :
    ((cFiles args).map (objectPath host)).Nodup ↔ NamesApart args := by
  rw [List.nodup_map_iff_inj_on distinct]
  simp only [objectPath_eq_iff]
  rfl

/-! ## The files after the compiles -/

theorem filesAfter_append (host : Host) (n : Nat) (before later : List Compile)
    (files : Token → Option Token) :
    filesAfter host n (before ++ later) files =
      filesAfter host (n + before.length) later (filesAfter host n before files) := by
  induction before generalizing n files with
  | nil => rfl
  | cons c rest ih =>
    rw [List.cons_append, filesAfter, ih, filesAfter, List.length_cons, Nat.add_right_comm,
      Nat.add_assoc]

/-- Only objects are written. -/
theorem filesAfter_other {cs : List Compile} {path : Token} (other : ∀ c ∈ cs, c.object ≠ path)
    (host : Host) (n : Nat) (files : Token → Option Token) :
    filesAfter host n cs files path = files path := by
  induction cs generalizing n files with
  | nil => rfl
  | cons c rest ih =>
    obtain ⟨first, others⟩ := List.forall_mem_cons.mp other
    rw [filesAfter, ih others, Function.update_of_ne (Ne.symm first)]

/-- Compiles from the n-th command on that together serve the sources: those for
one source write its object only, and leave its code there. -/
inductive Served (host : Host) : Nat → List Token → List Compile → Prop
  | nil (n : Nat) : Served host n [] []
  | cons {n : Nat} {src : Token} {srcs : List Token} {tried rest : List Compile}
      (own : ∀ c ∈ tried, c.object = objectPath host src)
      (holds : ∀ files, filesAfter host n tried files (objectPath host src) = some src)
      (later : Served host (n + tried.length) srcs rest) :
      Served host n (src :: srcs) (tried ++ rest)

variable {n : Nat} {srcs : List Token} {ran : List Compile}

theorem Served.objects (served : Served host n srcs ran) :
    ∀ c ∈ ran, c.object ∈ srcs.map (objectPath host) := by
  induction served with
  | nil => simp
  | cons own holds later ih =>
    intro c member
    rcases List.mem_append.mp member with here | there
    · rw [own c here]
      exact List.mem_cons_self
    · exact List.mem_cons_of_mem _ (ih c there)

/-- With paths of their own, the sources are not overwritten. -/
theorem Served.holds (served : Served host n srcs ran)
    (paths : (srcs.map (objectPath host)).Nodup) (files : Token → Option Token) :
    List.Forall₂ (fun src obj => filesAfter host n ran files obj = some src)
      srcs (srcs.map (objectPath host)) := by
  induction served generalizing files with
  | nil => exact .nil
  | @cons n src srcs tried rest own holds later ih =>
    obtain ⟨fresh, paths⟩ := List.nodup_cons.mp paths
    rw [filesAfter_append, List.map_cons]
    constructor
    · rw [filesAfter_other, holds]
      intro c member same
      exact fresh (same ▸ later.objects c member)
    · exact ih paths _

theorem compileLoop_served {cs : List Compile}
    (own : List.Forall₂ (fun src c => c.source = src ∧ c.object = objectPath host src) srcs cs)
    (ok : (compileLoop host n cs).2 = 0) : Served host n srcs (compileLoop host n cs).1 := by
  induction own generalizing n with
  | nil => exact .nil n
  | @cons src c srcs cs first others ih =>
    obtain ⟨source, object⟩ := first
    rw [compileLoop] at ok ⊢
    split at ok
    · next failed => exact absurd ok failed
    · next succeeded =>
      rw [if_neg succeeded]
      have own : ∀ c' ∈ [c], c'.object = objectPath host src := by simpa using object
      refine Served.cons own (fun files => ?_) (ih ok)
      rw [filesAfter, filesAfter, ← object, Function.update_self, if_pos (not_not.mp succeeded),
        source]

theorem compileOne_served {src : Token} (ok : (compileOne host args n src).2 = 0)
    (files : Token → Option Token) :
    filesAfter host n (compileOne host args n src).1 files (objectPath host src) = some src := by
  unfold compileOne at ok ⊢
  cases found : host.tcc with
  | none =>
    rw [found] at ok
    simpa [filesAfter, gccCompile] using ok
  | some tcc =>
    simp only [found] at ok ⊢
    split at ok
    · next failed =>
      rw [if_pos failed]
      simpa [filesAfter, gccCompile] using ok
    · next succeeded =>
      rw [if_neg succeeded]
      simpa [filesAfter, tccCompile] using ok

theorem compileOne_object {src : Token} :
    ∀ c ∈ (compileOne host args n src).1, c.object = objectPath host src := by
  intro c member
  rcases compileOne_mem host args n src c member with rfl | ⟨tcc, rfl⟩ <;> rfl

theorem compileEach_served (ok : (compileEach host args n srcs).2 = 0) :
    Served host n srcs (compileEach host args n srcs).1 := by
  induction srcs generalizing n with
  | nil => exact .nil n
  | cons src rest ih =>
    rw [compileEach] at ok ⊢
    dsimp only at ok ⊢
    split at ok
    · next failed => exact absurd ok failed
    · next succeeded =>
      rw [if_neg succeeded]
      exact .cons compileOne_object (compileOne_served (not_not.mp succeeded)) (ih ok)

/-! ## The two drivers -/

/-- A driver whose link comes after compiles that served all sources. -/
theorem own_objects_iff {build : Build} (distinct : (cFiles args).Nodup)
    (served : ∀ link ∈ build.link,
      link.objects = oFiles args ++ (cFiles args).map (objectPath host) ∧
        Served host 0 (cFiles args) build.compiles) :
    OwnObjects host args build ↔ NamesApart args := by
  constructor
  · intro own
    exact (paths_iff distinct).mp own.paths
  · intro apart
    have paths : ((cFiles args).map (objectPath host)).Nodup := (paths_iff distinct).mpr apart
    refine ⟨paths, fun link linked => ?_⟩
    obtain ⟨objects, compiles⟩ := served link linked
    exact ⟨_, objects, paths, fun files => compiles.holds paths files⟩

theorem axcc_own_objects_iff (host : Host) (distinct : (cFiles args).Nodup) :
    OwnObjects host args (axcc host args) ↔ NamesApart args := by
  apply own_objects_iff distinct
  intro link linked
  obtain ⟨succeeded, compiles⟩ := axcc_ran linked
  obtain ⟨out, -, rfl⟩ := axcc_link host args link linked
  refine ⟨axccLink_objects host args _ out, ?_⟩
  rw [compiles]
  apply compileLoop_served _ succeeded
  rw [List.forall₂_map_right_iff]
  exact List.forall₂_same.mpr (fun src _ => ⟨rfl, rfl⟩)

theorem axtcc_own_objects_iff (host : Host) (distinct : (cFiles args).Nodup) :
    OwnObjects host args (axtcc host args) ↔ NamesApart args := by
  apply own_objects_iff distinct
  intro link linked
  obtain ⟨succeeded, compiles⟩ := axtcc_ran linked
  obtain rfl := axtcc_link host args link linked
  refine ⟨axtccLink_objects host args _ _, ?_⟩
  rw [compiles]
  exact compileEach_served succeeded

/-- With sources of different paths, each driver gives every source an object of
its own exactly when no two last components look alike. -/
theorem drivers_own_objects_iff (host : Host) (args : List Token) (distinct : (cFiles args).Nodup) :
    (axccMode args = .link → (OwnObjects host args (axcc host args) ↔ NamesApart args)) ∧
      (axtccMode args = .link → (OwnObjects host args (axtcc host args) ↔ NamesApart args)) :=
  ⟨fun _ => axcc_own_objects_iff host distinct, fun _ => axtcc_own_objects_iff host distinct⟩

/-- `a.c b.c` -/
def apartArgs : List Token := [text "a.c", text "b.c"]

theorem drivers_own_objects_iff_apart :
    OwnObjects willingHost apartArgs (axcc willingHost apartArgs) ∧
      OwnObjects willingHost apartArgs (axtcc willingHost apartArgs) := by
  have apart : NamesApart apartArgs := by
    have paths : ((cFiles apartArgs).map (objectPath willingHost)).Nodup := by decide
    exact (paths_iff (by decide)).mp paths
  obtain ⟨axccSide, axtccSide⟩ := drivers_own_objects_iff willingHost apartArgs (by decide)
  exact ⟨(axccSide (by decide)).mpr apart, (axtccSide (by decide)).mpr apart⟩

/-- `a/x.c b/x.c` -/
def sameNameArgs : List Token := [text "a/x.c", text "b/x.c"]

/-- Both drivers hand the linker one object twice, with the code of the second
source. -/
theorem same_name_shares_object :
    axccMode sameNameArgs = .link ∧ axtccMode sameNameArgs = .link ∧ (cFiles sameNameArgs).Nodup ∧
      (axcc willingHost sameNameArgs).link.map Link.objects = some [text "/x.o", text "/x.o"] ∧
      (axtcc willingHost sameNameArgs).link.map Link.objects = some [text "/x.o", text "/x.o"] ∧
      filesAfter willingHost 0 (axcc willingHost sameNameArgs).compiles (fun _ => none)
        (text "/x.o") = some (text "b/x.c") ∧
      filesAfter willingHost 0 (axtcc willingHost sameNameArgs).compiles (fun _ => none)
        (text "/x.o") = some (text "b/x.c") ∧
      ¬ OwnObjects willingHost sameNameArgs (axcc willingHost sameNameArgs) ∧
      ¬ OwnObjects willingHost sameNameArgs (axtcc willingHost sameNameArgs) := by
  refine ⟨by decide, by decide, by decide, by decide, by decide, by decide, by decide,
    fun own => ?_, fun own => ?_⟩
  · exact absurd own.paths (by decide)
  · exact absurd own.paths (by decide)

end AxiomeToolchain.Guarantees.DriverObjects
