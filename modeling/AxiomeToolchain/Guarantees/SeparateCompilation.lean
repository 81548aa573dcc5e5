import AxiomeToolchain.Source.DriverModes
import AxiomeToolchain.Guarantees.DriverObjects

/-!
# One call of axtcc, or one for each source

A build system compiles every source with a call of its own, `axtcc -c`, and
links the objects with a last one, stopping at the first call that fails. With
the objects under the names that axtcc itself gives them, that is what a single
call with all the sources does, command by command, whatever the commands exit
with.
-/

set_option autoImplicit false

namespace AxiomeToolchain.Guarantees.SeparateCompilation
open AxiomeToolchain.Source.Driver
open AxiomeToolchain.Source.DriverReading
open AxiomeToolchain.Guarantees.DriverRouting
open AxiomeToolchain.Guarantees.DriverObjects

/-- The host as it is after n commands. -/
def afterCommands (host : Host) (n : Nat) : Host :=
  { host with status := fun k => host.status (n + k) }

/-- `a && b && ..` of a shell: a run that fails is the last. -/
def inTurn : Host → List (Host → Ran) → Ran
  | _, [] => ⟨[], 0⟩
  | host, run :: rest =>
    let first := run host
    if first.exit ≠ 0 then first
    else
      let later := inTurn (afterCommands host first.commands.length) rest
      ⟨first.commands ++ later.commands, later.exit⟩

def compileArgs (opts : List Token) (src obj : Token) : List Token :=
  text "-c" :: opts ++ [src, text "-o", obj]

/-- Sources or objects, to be linked. -/
def linkArgs (opts files : List Token) (out : Token) : List Token :=
  opts ++ files ++ [text "-o", out]

/-- What axtcc looks for in front. -/
def firstTokens : List Token := helpTokens ++ [text "-v", text "--version"]

/-- The options are no files and choose no mode or output, the sources end in
`.c`, and of these, the output and the temporary directory none is an option. -/
structure Separable (host : Host) (opts srcs : List Token) (out : Token) : Prop where
  options : ∀ a ∈ opts, endsWith ".c" a = false ∧ endsWith ".o" a = false ∧
    a ∉ [text "-o", text "-c", text "-run"]
  first : ∀ a ∈ opts.head?, a ∉ firstTokens
  sources : ∀ src ∈ srcs, startsWith "-" src = false ∧ endsWith ".c" src = true
  output : startsWith "-" out = false ∧ endsWith ".c" out = false ∧ endsWith ".o" out = false
  tmpdir : startsWith "-" host.tmpdir = false

variable {host : Host} {opts srcs files args argv : List Token} {out src obj a : Token} {n : Nat}
  {suffix : String}

/-! ## Names -/

theorem not_both (ends : endsWith ".c" a = true) : endsWith ".o" a = false := by
  rw [Bool.eq_false_iff]
  intro also
  rw [endsWith, List.isSuffixOf_iff_suffix] at ends also
  obtain ⟨x, rfl⟩ := ends
  obtain ⟨y, same⟩ := also
  exact absurd (List.append_inj' same rfl).2 (by decide)

theorem startsWith_append (x y : Token) :
    startsWith "-" (x ++ y) = if x = [] then startsWith "-" y else startsWith "-" x := by
  cases x <;> simp [startsWith, text, List.isPrefixOf]

theorem replaceDotC_append (x : Token) :
    replaceDotC (x ++ text ".c") = replaceDotC x ++ text ".o" := by
  induction x using replaceDotC.induct with
  | case1 rest ih => simp only [List.cons_append, replaceDotC, ih]
  | case2 ch rest other ih =>
    have plain : ch ≠ '.' ∨ rest.head? ≠ some 'c' := by
      rw [← not_and_or]
      rintro ⟨rfl, head⟩
      obtain ⟨x', rfl⟩ := List.head?_eq_some_iff.mp head
      exact other x' rfl rfl
    have longer : ch ≠ '.' ∨ (rest ++ text ".c").head? ≠ some 'c' := by
      cases rest with
      | nil => exact .inr (by decide)
      | cons d rest => exact plain
    rw [List.cons_append, replaceDotC_cons longer, replaceDotC_cons plain, ih, List.cons_append]
  | case3 => decide

/-- The object of a source ends in `.o`. -/
theorem objectPath_ends (host : Host) (ends : endsWith ".c" src = true) :
    endsWith ".o" (objectPath host src) = true := by
  rw [endsWith, List.isSuffixOf_iff_suffix] at ends ⊢
  obtain ⟨x, rfl⟩ := ends
  have base : basename (x ++ text ".c") = basename x ++ text ".c" := by
    simp [basename, text]
  rw [objectPath, base, replaceDotC_append, ← List.append_assoc]
  exact List.suffix_append _ _

theorem objectPath_no_dash (noDash : startsWith "-" host.tmpdir = false) (src : Token) :
    startsWith "-" (objectPath host src) = false := by
  rw [objectPath, List.append_assoc, startsWith_append]
  split
  · rw [startsWith_append]
    rfl
  · exact noDash

theorem not_option (noDash : startsWith "-" a = false) : axtccOption a = false := by
  rw [Bool.eq_false_iff, axtccOption_eq]
  intro starts
  rw [startsWith_dash known_axtcc starts] at noDash
  cases noDash

theorem first_dashed : ∀ a ∈ firstTokens, startsWith "-" a = true := by decide

theorem modes_dashed : ∀ a ∈ [text "-run", text "-c"], startsWith "-" a = true ∧ a ≠ text "-o" := by
  decide

/-! ## Files in an argument list -/

/-- Tokens that are no options and all end in `suffix`. -/
def Named (suffix : String) (files : List Token) : Prop :=
  ∀ a ∈ files, startsWith "-" a = false ∧ endsWith suffix a = true

theorem Named.options (named : Named suffix files) : files.filter axtccOption = [] := by
  rw [List.filter_eq_nil_iff]
  intro a member
  rw [not_option (named a member).1]
  exact Bool.false_ne_true

theorem Named.not_mem (named : Named suffix files) (dash : startsWith "-" a = true) : a ∉ files := by
  intro member
  rw [(named a member).1] at dash
  cases dash

theorem tokenAfterO_last {before : List Token} (fresh : text "-o" ∉ before) (a : Token) :
    tokenAfterO (before ++ [text "-o", a]) = some a := by
  have index : (before ++ [text "-o", a]).idxOf (text "-o") = before.length := by
    rw [List.idxOf_append_of_notMem fresh, List.idxOf_cons_self, Nat.add_zero]
  rw [tokenAfterO, index, List.getElem?_append_right (Nat.le_add_right _ 1),
    Nat.add_sub_cancel_left]
  rfl

/-- What axtcc finds in the arguments of a link. -/
theorem linkArgs_files (files : List Token) (separable : Separable host opts srcs out) :
    cFiles (linkArgs opts files out) = cFiles files ∧
      oFiles (linkArgs opts files out) = oFiles files := by
  have c : cFiles opts = [] := by
    rw [cFiles, List.filter_eq_nil_iff]
    exact fun a member => by simp [(separable.options a member).1]
  have o : oFiles opts = [] := by
    rw [oFiles, List.filter_eq_nil_iff]
    exact fun a member => by simp [(separable.options a member).2.1]
  obtain ⟨-, outC, outO⟩ := separable.output
  have minus : endsWith ".c" (text "-o") = false ∧ endsWith ".o" (text "-o") = false := by decide
  unfold cFiles oFiles at *
  constructor
  · simp [linkArgs, c, outC, minus.1]
  · simp [linkArgs, o, outO, minus.2]

theorem linkArgs_out (separable : Separable host opts srcs out) (named : Named suffix files) :
    axtccOut (linkArgs opts files out) = if out = [] then text "a.out" else out := by
  have before : text "-o" ∉ opts ++ files := by
    rw [List.mem_append, not_or]
    refine ⟨fun member => ?_, named.not_mem (by decide)⟩
    exact (separable.options _ member).2.2 List.mem_cons_self
  rw [axtccOut, if_pos (by simp [linkArgs]), linkArgs, tokenAfterO_last before]
  cases out <;> rfl

/-- The compile of one source has its object by name. -/
theorem compileArgs_object (separable : Separable host opts srcs out) (source : src ∈ srcs)
    (named : Named ".o" [obj]) :
    cFiles (compileArgs opts src obj) = [src] ∧ axtccObject (compileArgs opts src obj) src = obj := by
  obtain ⟨srcDash, srcC⟩ := separable.sources src source
  obtain ⟨-, objO⟩ := named obj List.mem_cons_self
  have objC : endsWith ".c" obj = false := by
    rw [Bool.eq_false_iff]
    intro ends
    rw [not_both ends] at objO
    cases objO
  have files : cFiles (compileArgs opts src obj) = [src] := by
    have c : opts.filter (endsWith ".c") = [] := by
      rw [List.filter_eq_nil_iff]
      exact fun a member => by simp [(separable.options a member).1]
    have minus : endsWith ".c" (text "-c") = false ∧ endsWith ".c" (text "-o") = false := by decide
    simp [cFiles, compileArgs, c, srcC, objC, minus.1, minus.2]
  have before : text "-o" ∉ text "-c" :: opts ++ [src] := by
    simp only [List.cons_append, List.mem_cons, List.mem_append, List.not_mem_nil, or_false, not_or]
    refine ⟨by decide, fun member => ?_, ?_⟩
    · exact (separable.options _ member).2.2 List.mem_cons_self
    · rintro rfl
      exact absurd srcDash (by decide)
  have cut : compileArgs opts src obj = (text "-c" :: opts ++ [src]) ++ [text "-o", obj] := by
    simp [compileArgs]
  have value : tokenAfterO (compileArgs opts src obj) = some obj := by
    rw [cut, tokenAfterO_last before]
  have present : text "-o" ∈ compileArgs opts src obj := by simp [compileArgs]
  refine ⟨files, ?_⟩
  rw [axtccObject, files]
  simp only [present, value, if_true, List.length_singleton]
  cases obj with
  | nil => exact absurd objO (by decide)
  | cons => rfl

/-- The options that a compile gets, in either call. -/
theorem passed_options (separable : Separable host opts srcs out) (source : src ∈ srcs)
    (named : Named ".o" [obj]) :
    (compileArgs opts src obj).filter axtccOption = opts.filter axtccOption ∧
      (linkArgs opts srcs out).filter axtccOption = opts.filter axtccOption := by
  have minus : axtccOption (text "-c") = false ∧ axtccOption (text "-o") = false := by decide
  have srcs : srcs.filter axtccOption = [] := Named.options separable.sources
  have src := not_option (separable.sources src source).1
  have out := not_option separable.output.1
  have obj := not_option (named obj List.mem_cons_self).1
  constructor
  · simp [compileArgs, minus.1, minus.2, src, obj]
  · simp [linkArgs, minus.2, srcs, out]

/-! ## Modes -/

theorem linkArgs_mode (separable : Separable host opts srcs out) (named : Named suffix files) :
    axtccMode (linkArgs opts files out) = .link := by
  have absent : ∀ a ∈ [text "-run", text "-c"], a ∉ linkArgs opts files out := by
    intro a mode member
    obtain ⟨dash, notO⟩ := modes_dashed a mode
    rw [linkArgs, List.mem_append, List.mem_append, List.mem_pair] at member
    obtain (option | file) | same | same := member
    · have free := (separable.options a option).2.2
      simp only [List.mem_cons, List.not_mem_nil, or_false] at mode free
      tauto
    · exact named.not_mem dash file
    · exact notO same
    · rw [same, separable.output.1] at dash
      cases dash
  have head : ∃ a, (linkArgs opts files out).head? = some a ∧ a ∉ firstTokens := by
    rw [linkArgs]
    cases opts with
    | cons o rest => exact ⟨o, rfl, separable.first o rfl⟩
    | nil =>
      cases files with
      | nil => exact ⟨text "-o", rfl, by decide⟩
      | cons file rest =>
        refine ⟨file, rfl, fun member => ?_⟩
        have dash := first_dashed file member
        rw [(named file List.mem_cons_self).1] at dash
        cases dash
  obtain ⟨a, head, other⟩ := head
  rw [firstTokens, List.mem_append, not_or] at other
  have names : a ≠ text "-v" ∧ a ≠ text "--version" := by simpa using other.2
  have run := absent (text "-run") (by decide)
  have c := absent (text "-c") (by decide)
  simp [axtccMode, head, other.1, names, run, c]

theorem compileArgs_mode (separable : Separable host opts srcs out) (source : src ∈ srcs)
    (named : Named ".o" [obj]) : axtccMode (compileArgs opts src obj) = .compileOnly := by
  have run : text "-run" ∉ compileArgs opts src obj := by
    have inOpts : text "-run" ∉ opts := fun member => (separable.options _ member).2.2 (by decide)
    have inSrc : text "-run" ≠ src := by
      rintro rfl
      exact absurd (separable.sources _ source).1 (by decide)
    have inObj : text "-run" ≠ obj := by
      rintro rfl
      exact absurd (named _ List.mem_cons_self).1 (by decide)
    have other : text "-run" ≠ text "-c" ∧ text "-run" ≠ text "-o" := by decide
    simp [compileArgs, inOpts, inSrc, inObj, other]
  have head : (compileArgs opts src obj).head? = some (text "-c") := rfl
  have c : text "-c" ∈ compileArgs opts src obj := by simp [compileArgs]
  have first : text "-c" ∉ helpTokens ∧ text "-c" ≠ text "-v" ∧ text "-c" ≠ text "--version" := by
    decide
  simp [axtccMode, head, first, run, c]

/-! ## The calls -/

/-- A call `axtcc -c` for one source. -/
def compileCall (opts : List Token) (src obj : Token) (host : Host) : Ran :=
  axtccMain host (compileArgs opts src obj)

def linkCall (opts files : List Token) (out : Token) (host : Host) : Ran :=
  axtccMain host (linkArgs opts files out)

theorem objects_named (separable : Separable host opts srcs out) :
    Named ".o" (srcs.map (objectPath host)) := by
  intro obj member
  obtain ⟨src, source, rfl⟩ := List.mem_map.mp member
  exact ⟨objectPath_no_dash separable.tmpdir src,
    objectPath_ends host (separable.sources src source).2⟩

theorem afterCommands_add (host : Host) (n k : Nat) :
    afterCommands (afterCommands host n) k = afterCommands host (n + k) := by
  simp only [afterCommands, Nat.add_assoc]

/-- A compile depends on the arguments only through the options passed on. -/
theorem compileOneTo_congr {objOf objOf' : Token → Token}
    (passed : args.filter axtccOption = argv.filter axtccOption) (object : objOf src = objOf' src) :
    compileOneTo host args objOf n src = compileOneTo host argv objOf' n src := by
  have tcc : ∀ tcc, tccCompileTo host tcc args src (objOf src) =
      tccCompileTo host tcc argv src (objOf' src) := by
    intro tcc
    have same : (tccCompileTo host tcc args src (objOf src)).argv =
        (tccCompileTo host tcc argv src (objOf' src)).argv := by
      rw [tccCompileTo_argv, tccCompileTo_argv, passed, object]
    rw [object] at same ⊢
    exact congrArg (Compile.mk _ _ _) same
  have gcc : gccCompileTo host args src (objOf src) = gccCompileTo host argv src (objOf' src) := by
    have same : (gccCompileTo host args src (objOf src)).argv =
        (gccCompileTo host argv src (objOf' src)).argv := by
      rw [gccCompileTo_argv, gccCompileTo_argv, passed, object]
    rw [object] at same ⊢
    exact congrArg (Compile.mk _ _ _) same
  simp only [compileOneTo, tcc, gcc]

/-- The call for a source runs the compiles that the common call runs for it. -/
theorem compileCall_eq (separable : Separable host opts srcs out) (source : src ∈ srcs) (n : Nat) :
    compileCall opts src (objectPath host src) (afterCommands host n) =
      ⟨(compileOneTo host (linkArgs opts srcs out) (objectPath host) n src).1.map Compile.argv,
        (compileOneTo host (linkArgs opts srcs out) (objectPath host) n src).2⟩ := by
  have named : Named ".o" [objectPath host src] := by
    intro obj member
    rw [List.mem_singleton.mp member]
    exact objects_named separable _ (List.mem_map_of_mem source)
  obtain ⟨files, object⟩ := compileArgs_object separable source named
  obtain ⟨own, common⟩ := passed_options separable source named
  have one : compileOneTo (afterCommands host n) (compileArgs opts src (objectPath host src))
      (axtccObject (compileArgs opts src (objectPath host src))) 0 src =
        compileOneTo host (linkArgs opts srcs out) (objectPath host) n src := by
    rw [compileOneTo_congr (own.trans common.symm) object]
    rfl
  rw [compileCall, axtccMain, compileArgs_mode separable source named]
  simp only [axtccCompileOnly, files, compileEachTo, one, Build.ran, Build.commands]
  split
  · simp
  · next succeeded => simp [not_not.mp succeeded]

/-- The link command depends on the arguments only through what is forwarded. -/
theorem axtccLink_congr {objs : List Token}
    (forwarded : args.filter (axtccForwards out) = argv.filter (axtccForwards out))
    (nostdlib : text "-nostdlib" ∈ args ↔ text "-nostdlib" ∈ argv) :
    axtccLink host args objs out = axtccLink host argv objs out := by
  simp only [axtccLink, forwarded, nostdlib]

/-- Sources and objects are not forwarded. -/
theorem forwarded_options (named : Named suffix files) (ext : suffix = ".c" ∨ suffix = ".o")
    (name : Token) :
    (linkArgs opts files out).filter (axtccForwards name) =
      (opts ++ [text "-o", out]).filter (axtccForwards name) := by
  have none : files.filter (axtccForwards name) = [] := by
    rw [List.filter_eq_nil_iff]
    intro a member
    obtain ⟨-, ends⟩ := named a member
    rcases ext with rfl | rfl <;> simp [axtccForwards, ends]
  rw [linkArgs, List.filter_append, List.filter_append, none, List.append_nil, ← List.filter_append]

theorem linkCall_eq (separable : Separable host opts srcs out) (n : Nat) :
    linkCall opts (srcs.map (objectPath host)) out (afterCommands host n) =
      ⟨[(axtccLink host (linkArgs opts srcs out) (srcs.map (objectPath host))
        (axtccOut (linkArgs opts srcs out))).argv], host.status n⟩ := by
  have sources : Named ".c" srcs := separable.sources
  have objects := objects_named separable
  have noC : cFiles (srcs.map (objectPath host)) = [] := by
    rw [cFiles, List.filter_eq_nil_iff]
    intro a member ends
    have also := (objects a member).2
    rw [not_both ends] at also
    cases also
  have allO : oFiles (srcs.map (objectPath host)) = srcs.map (objectPath host) := by
    rw [oFiles, List.filter_eq_self]
    exact fun a member => (objects a member).2
  obtain ⟨c, o⟩ := linkArgs_files (srcs.map (objectPath host)) separable
  have name : axtccOut (linkArgs opts (srcs.map (objectPath host)) out) =
      axtccOut (linkArgs opts srcs out) := by
    rw [linkArgs_out separable objects, linkArgs_out separable sources]
  have link : axtccLink host (linkArgs opts (srcs.map (objectPath host)) out)
      (srcs.map (objectPath host)) (axtccOut (linkArgs opts srcs out)) =
        axtccLink host (linkArgs opts srcs out) (srcs.map (objectPath host))
          (axtccOut (linkArgs opts srcs out)) := by
    apply axtccLink_congr
    · rw [forwarded_options objects (.inr rfl), forwarded_options sources (.inl rfl)]
    · have inObjects := objects.not_mem (a := text "-nostdlib") (by decide)
      have inSources := sources.not_mem (a := text "-nostdlib") (by decide)
      simp only [linkArgs, List.mem_append, inObjects, inSources]
  rw [linkCall, axtccMain, linkArgs_mode separable objects]
  simp only [axtcc, c, o, noC, allO, name, compileEach, Build.ran, Build.commands, List.map_nil,
    List.append_nil]
  exact congrArg (fun link : Link => Ran.mk [link.argv] (host.status n)) link

theorem calls_in_turn (separable : Separable host opts srcs out) {later : List Token}
    (within : ∀ src ∈ later, src ∈ srcs) (n : Nat) {ran : List Compile} {code : Int}
    (run : compileEachTo host (linkArgs opts srcs out) (objectPath host) n later = (ran, code)) :
    inTurn (afterCommands host n)
        (later.map (fun src => compileCall opts src (objectPath host src)) ++
          [linkCall opts (srcs.map (objectPath host)) out]) =
      if code ≠ 0 then ⟨ran.map Compile.argv, code⟩
      else ⟨ran.map Compile.argv ++ [(axtccLink host (linkArgs opts srcs out)
        (srcs.map (objectPath host)) (axtccOut (linkArgs opts srcs out))).argv],
        host.status (n + ran.length)⟩ := by
  induction later generalizing n ran code with
  | nil =>
    obtain ⟨rfl, rfl⟩ := Prod.mk.inj run
    rw [List.map_nil, List.nil_append, inTurn, linkCall_eq separable]
    simp only [ne_eq, inTurn]
    split
    · rfl
    · next succeeded => simp [not_not.mp succeeded]
  | cons src rest ih =>
    obtain ⟨source, others⟩ := List.forall_mem_cons.mp within
    rw [List.map_cons, List.cons_append, inTurn, compileCall_eq separable source]
    rw [compileEachTo] at run
    dsimp only at run ⊢
    split at run
    · next failed =>
      obtain ⟨rfl, rfl⟩ := Prod.mk.inj run
      rw [if_pos failed, if_pos failed]
    · next succeeded =>
      obtain ⟨rfl, rfl⟩ := Prod.mk.inj run
      rw [if_neg succeeded, afterCommands_add, List.length_map, ih others _ rfl]
      split
      · simp
      · simp [Nat.add_assoc]

/-- One call with all the sources runs the commands of the calls one by one, and
exits as they do. -/
theorem separate_compilation (separable : Separable host opts srcs out) :
    axtccMain host (linkArgs opts srcs out) =
      inTurn host (srcs.map (fun src => compileCall opts src (objectPath host src)) ++
        [linkCall opts (srcs.map (objectPath host)) out]) := by
  have sources : Named ".c" srcs := separable.sources
  have start : afterCommands host 0 = host := by
    simp only [afterCommands, Nat.zero_add]
  obtain ⟨c, o⟩ := linkArgs_files srcs separable
  have allC : cFiles srcs = srcs := by
    rw [cFiles, List.filter_eq_self]
    exact fun a member => (sources a member).2
  have noO : oFiles srcs = [] := by
    rw [oFiles, List.filter_eq_nil_iff]
    exact fun a member => by simp [not_both (sources a member).2]
  obtain ⟨⟨ran, code⟩, run⟩ :
      ∃ r, compileEachTo host (linkArgs opts srcs out) (objectPath host) 0 srcs = r := ⟨_, rfl⟩
  have calls := calls_in_turn separable (fun src member => member) 0 run
  rw [start] at calls
  rw [calls, axtccMain, linkArgs_mode separable sources]
  simp only [axtcc, c, o, allC, noO, compileEach_eq, run]
  split
  · simp [Build.ran, Build.commands]
  · simp [Build.ran, Build.commands]

/-- `-g a.c b/c.c -o prog`, where tcc fails on the second source. -/
theorem separate_compilation_two :
    axtccMain { willingHost with tcc := some (text "tcc"), status := fun n => if n = 1 then 1 else 0 }
        (linkArgs [text "-g"] [text "a.c", text "b/c.c"] (text "prog")) =
      inTurn { willingHost with tcc := some (text "tcc"), status := fun n => if n = 1 then 1 else 0 }
        [compileCall [text "-g"] (text "a.c") (text "/a.o"),
          compileCall [text "-g"] (text "b/c.c") (text "/c.o"),
          linkCall [text "-g"] [text "/a.o", text "/c.o"] (text "prog")] :=
  separate_compilation
    ⟨by decide, by decide, by decide, by decide, by decide⟩

end AxiomeToolchain.Guarantees.SeparateCompilation
