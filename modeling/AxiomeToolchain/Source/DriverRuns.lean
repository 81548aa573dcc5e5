import AxiomeToolchain.Source.DriverReading

/-!
# The commands of a driver run

The shape of each compile command, how it is read back, and which compiles and
which link a run makes.
-/

set_option autoImplicit false

namespace AxiomeToolchain.Source.DriverRuns
open AxiomeToolchain.Library.OptionList
open AxiomeToolchain.Source.Driver
open AxiomeToolchain.Source.DriverReading

/-- The driver's own flags, the tokens passed on, then source and object. -/
structure Shaped (c : Compile) (own passed : List Token) : Prop where
  base : c.base.tail = own ++ [c.source, text "-o", c.object]
  argv : c.argv.tail = own ++ passed ++ [c.source, text "-o", c.object]

/-- The command is read as the driver's own flags, then items among which the
options stand in order, then the source as an input and the object. -/
def Gives (names : List String) (wanted : List (Item Token)) (c : Compile) : Prop :=
  ∃ own given : List (Item Token),
    items names c.base.tail = own ++ [.word c.source, .pair (text "-o") c.object] ∧
    items names c.argv.tail = own ++ given ++ [.word c.source, .pair (text "-o") c.object] ∧
    wanted.Sublist given

variable {names : List String} {args own passed : List Token} {host : Host} {c : Compile}
  {src : Token}

theorem accepts_of_ne {a : Token} (ne : a ≠ text "-o") (o : Token) :
    (grammar names).accepts o a = true := by
  simp [grammar, ne]

/-- The end of a compile command: an open option swallows the source. -/
theorem readFrom_source (o : Option Token) (notO : src ≠ text "-o")
    (word : (grammar names).opens src = false) (obj : Token) :
    (grammar names).readFrom o [src, text "-o", obj] =
      [match o with | none => .word src | some o => .pair o src, .pair (text "-o") obj] := by
  cases o <;>
    simp [Grammar.readFrom, Grammar.closed, Grammar.pending, Grammar.step, Grammar.start, word,
      accepts_of_ne notO] <;>
    simp [grammar]

/-- The options reach the compile, and the source stays an input, exactly when
the tokens passed on leave no option open and are read as the options in order. -/
theorem gives_iff (shaped : Shaped c own passed)
    (plain : ∀ a ∈ own, (grammar names).opens a = false) (notO : c.source ≠ text "-o")
    (word : (grammar names).opens c.source = false) (wanted : List (Item Token)) :
    Gives names wanted c ↔ (grammar names).Complete passed ∧ wanted.Sublist (items names passed) := by
  obtain ⟨complete, words⟩ := read_words plain
  have base : items names c.base.tail =
      own.map .word ++ [.word c.source, .pair (text "-o") c.object] := by
    rw [items, shaped.base, complete.read_append, words, Grammar.read,
      readFrom_source none notO word]
  have argv : items names c.argv.tail = own.map .word ++ ((grammar names).closed none passed ++
      (grammar names).readFrom ((grammar names).pending none passed)
        [c.source, text "-o", c.object]) := by
    rw [items, shaped.argv, List.append_assoc, complete.read_append, words, Grammar.read,
      readFrom_append]
  unfold Gives
  constructor
  · rintro ⟨own', given, base', argv', order⟩
    rw [base] at base'
    obtain rfl := List.append_cancel_right base'
    rw [argv, List.append_assoc] at argv'
    have tail := List.append_cancel_left argv'
    rw [readFrom_source _ notO word] at tail
    obtain ⟨front, last⟩ := List.append_inj' tail rfl
    have closed : (grammar names).Complete passed := by
      rw [Grammar.Complete]
      cases left : (grammar names).pending none passed with
      | none => rfl
      | some o => simp [left] at last
    refine ⟨closed, ?_⟩
    rw [items, closed.read_eq, front]
    exact order
  · rintro ⟨closed, order⟩
    refine ⟨own.map .word, items names passed, base, ?_, order⟩
    rw [argv, closed, readFrom_source none notO word, items, closed.read_eq, List.append_assoc]

/-! ## Shapes -/

theorem axccCompile_shaped (host : Host) (args : List Token) (src : Token) :
    Shaped (axccCompile host args src) (axAppCflags host ++ [text "-c"])
      ((filtered args).filter axccOption) := by
  have base : (axccCompile host args src).base =
      (host.cc :: (axAppCflags host ++ [text "-c"])) ++ [src, text "-o", objectPath host src] := by
    simp [axccCompile]
  have argv : (axccCompile host args src).argv =
      propagate axccOption (axccCompile host args src).base (filtered args) := rfl
  rw [base, propagate_eq] at argv
  exact ⟨by rw [base]; rfl, by rw [argv]; rfl⟩

theorem gccCompile_shaped (host : Host) (args : List Token) (src : Token) :
    Shaped (gccCompile host args src) (gccBase host ++ [text "-c"]) (args.filter axtccOption) := by
  have base : (gccCompile host args src).base =
      (host.gcc :: (gccBase host ++ [text "-c"])) ++ [src, text "-o", objectPath host src] := by
    simp [gccCompile]
  have argv : (gccCompile host args src).argv =
      propagate axtccOption (gccCompile host args src).base args := rfl
  rw [base, propagate_eq] at argv
  exact ⟨by rw [base]; rfl, by rw [argv]; rfl⟩

/-- The flags of `tcc_compile`. -/
def tccFlags (host : Host) : List Token :=
  [text "-c", text "-I" ++ under host.sdk "include", text "-I" ++ under host.sdk "tcc-host/include",
    text "-D__axiome__", text "-D__x86_64__"]

theorem tccCompile_shaped (host : Host) (tcc : Token) (args : List Token) (src : Token) :
    Shaped (tccCompile host tcc args src) (tccFlags host) (args.filter axtccOption) := by
  have base : (tccCompile host tcc args src).base =
      (tcc :: tccFlags host) ++ [src, text "-o", objectPath host src] := rfl
  have argv : (tccCompile host tcc args src).argv =
      propagate axtccOption (tccCompile host tcc args src).base args := rfl
  rw [base, propagate_eq] at argv
  exact ⟨by rw [base]; rfl, by rw [argv]; rfl⟩

/-- `-I` with its directory in the same token opens nothing. -/
theorem include_plain (short : ∀ name ∈ names, (text name).length = 2) (dir : Token)
    (name : String) : (grammar names).opens (text "-I" ++ under dir name) = false := by
  have length : 2 < (text "-I" ++ under dir name).length := by
    have slash : (text "/").length = 1 := rfl
    have start : (text "-I").length = 2 := rfl
    simp only [under, List.length_append, slash, start]
    omega
  rw [Bool.eq_false_iff]
  intro opens
  simp only [grammar, Bool.or_eq_true, List.any_eq_true, decide_eq_true_eq] at opens
  rcases opens with same | ⟨known, member, same⟩
  · rw [same] at length
    exact absurd length (by decide)
  · rw [same, short known member] at length
    omega

theorem axAppCflags_plain (host : Host) :
    ∀ a ∈ axAppCflags host ++ [text "-c"], (grammar axccNames).opens a = false := by
  have short : ∀ name ∈ axccNames, (text name).length = 2 := by decide
  simp only [axAppCflags, axBaseCflags, List.cons_append, List.nil_append, List.forall_mem_cons,
    include_plain short]
  decide

theorem gccBase_plain (host : Host) :
    ∀ a ∈ gccBase host ++ [text "-c"], (grammar axtccNames).opens a = false := by
  have short : ∀ name ∈ axtccNames, (text name).length = 2 := by decide
  simp only [gccBase, List.cons_append, List.nil_append, List.forall_mem_cons, include_plain short]
  decide

theorem tccFlags_plain (host : Host) :
    ∀ a ∈ tccFlags host, (grammar axtccNames).opens a = false := by
  have short : ∀ name ∈ axtccNames, (text name).length = 2 := by decide
  simp only [tccFlags, List.forall_mem_cons, include_plain short]
  decide

/-! ## Runs -/

theorem compileLoop_mem (host : Host) (n : Nat) (cs : List Compile) :
    ∀ c ∈ (compileLoop host n cs).1, c ∈ cs := by
  induction cs generalizing n with
  | nil => simp [compileLoop]
  | cons first rest ih =>
    intro c member
    rw [compileLoop] at member
    split at member
    · exact List.mem_singleton.mp member ▸ List.mem_cons_self
    · rcases List.mem_cons.mp member with rfl | later
      · exact List.mem_cons_self
      · exact List.mem_cons_of_mem _ (ih (n + 1) c later)

theorem compileLoop_ok (ok : ∀ n, host.status n = 0) (n : Nat) (cs : List Compile) :
    compileLoop host n cs = (cs, 0) := by
  induction cs generalizing n with
  | nil => rfl
  | cons first rest ih => rw [compileLoop, if_neg (not_not_intro (ok n)), ih]

theorem axcc_compiles (host : Host) (args : List Token) :
    ∀ c ∈ (axcc host args).compiles, ∃ src ∈ cFiles args, c = axccCompile host args src := by
  intro c member
  have ran : c ∈ (compileLoop host 0 ((cFiles args).map (axccCompile host args))).1 := by
    unfold axcc at member
    split at member
    split at member
    · next run _ => rw [run]; exact member
    · next run _ => split at member <;> (rw [run]; exact member)
  obtain ⟨src, source, rfl⟩ := List.mem_map.mp (compileLoop_mem host 0 _ c ran)
  exact ⟨src, source, rfl⟩

theorem axcc_link (host : Host) (args : List Token) :
    ∀ link ∈ (axcc host args).link, ∃ out, axccOut args = some out ∧ link =
      axccLink host args (oFiles args ++ (cFiles args).map (objectPath host)) out := by
  intro link member
  unfold axcc at member
  split at member
  split at member
  · cases member
  · split at member
    · cases member
    · next out named => exact ⟨out, named, (Option.some.inj member).symm⟩

/-- A driver gets to the link only after its last compile has succeeded. -/
theorem axcc_ran {link : Link} (linked : (axcc host args).link = some link) :
    (compileLoop host 0 ((cFiles args).map (axccCompile host args))).2 = 0 ∧
      (axcc host args).compiles =
        (compileLoop host 0 ((cFiles args).map (axccCompile host args))).1 := by
  unfold axcc at linked ⊢
  split at linked
  split at linked
  · cases linked
  · next run succeeded =>
    rw [run]
    dsimp only
    rw [if_neg succeeded]
    refine ⟨not_not.mp succeeded, ?_⟩
    split <;> rfl

/-- When all commands succeed, every source is compiled and the link is made. -/
theorem axcc_ok (host : Host) (ok : ∀ n, host.status n = 0) {out : Token}
    (named : axccOut args = some out) :
    (axcc host args).compiles = (cFiles args).map (axccCompile host args) ∧
      (axcc host args).link =
        some (axccLink host args (oFiles args ++ (cFiles args).map (objectPath host)) out) := by
  unfold axcc
  rw [compileLoop_ok ok, named]
  exact ⟨rfl, rfl⟩

theorem compileOne_mem (host : Host) (args : List Token) (n : Nat) (src : Token) :
    ∀ c ∈ (compileOne host args n src).1,
      c = gccCompile host args src ∨ ∃ tcc, c = tccCompile host tcc args src := by
  intro c member
  unfold compileOne at member
  cases found : host.tcc with
  | none =>
    rw [found] at member
    exact .inl (List.mem_singleton.mp member)
  | some tcc =>
    simp only [found] at member
    split at member
    · rcases List.mem_cons.mp member with rfl | fallback
      · exact .inr ⟨tcc, rfl⟩
      · exact .inl (List.mem_singleton.mp fallback)
    · exact .inr ⟨tcc, List.mem_singleton.mp member⟩

theorem compileEach_mem (host : Host) (args : List Token) (n : Nat) (srcs : List Token) :
    ∀ c ∈ (compileEach host args n srcs).1, ∃ src ∈ srcs,
      c = gccCompile host args src ∨ ∃ tcc, c = tccCompile host tcc args src := by
  induction srcs generalizing n with
  | nil => simp [compileEach]
  | cons first rest ih =>
    intro c member
    have one := compileOne_mem host args n first
    rw [compileEach] at member
    dsimp only at member
    split at member
    · exact ⟨first, List.mem_cons_self, one c member⟩
    · rcases List.mem_append.mp member with here | later
      · exact ⟨first, List.mem_cons_self, one c here⟩
      · obtain ⟨src, source, compile⟩ := ih _ c later
        exact ⟨src, List.mem_cons_of_mem _ source, compile⟩

theorem compileEach_ok (ok : ∀ n, host.status n = 0) (gccOnly : host.tcc = none) (n : Nat)
    (srcs : List Token) : compileEach host args n srcs = (srcs.map (gccCompile host args), 0) := by
  induction srcs generalizing n with
  | nil => rfl
  | cons first rest ih =>
    have one : compileOne host args n first = ([gccCompile host args first], 0) := by
      rw [compileOne, gccOnly]
      exact Prod.ext rfl (ok n)
    rw [compileEach, one]
    dsimp only
    rw [if_neg (not_not_intro rfl), ih]
    rfl

theorem axtcc_compiles (host : Host) (args : List Token) :
    ∀ c ∈ (axtcc host args).compiles, ∃ src ∈ cFiles args,
      c = gccCompile host args src ∨ ∃ tcc, c = tccCompile host tcc args src := by
  intro c member
  apply compileEach_mem host args 0 (cFiles args) c
  unfold axtcc at member
  split at member
  split at member
  · next run _ => rw [run]; exact member
  · next run _ => rw [run]; exact member

theorem axtcc_link (host : Host) (args : List Token) :
    ∀ link ∈ (axtcc host args).link, link =
      axtccLink host args (oFiles args ++ (cFiles args).map (objectPath host)) (axtccOut args) := by
  intro link member
  unfold axtcc at member
  split at member
  split at member
  · cases member
  · exact (Option.some.inj member).symm

theorem axtcc_ran {link : Link} (linked : (axtcc host args).link = some link) :
    (compileEach host args 0 (cFiles args)).2 = 0 ∧
      (axtcc host args).compiles = (compileEach host args 0 (cFiles args)).1 := by
  unfold axtcc at linked ⊢
  split at linked
  split at linked
  · cases linked
  · next run succeeded =>
    rw [run]
    dsimp only
    rw [if_neg succeeded]
    exact ⟨not_not.mp succeeded, rfl⟩

theorem axtcc_ok (host : Host) (args : List Token) (ok : ∀ n, host.status n = 0)
    (gccOnly : host.tcc = none) :
    (axtcc host args).compiles = (cFiles args).map (gccCompile host args) ∧
      (axtcc host args).link = some (axtccLink host args
        (oFiles args ++ (cFiles args).map (objectPath host)) (axtccOut args)) := by
  unfold axtcc
  rw [compileEach_ok ok gccOnly]
  exact ⟨rfl, rfl⟩

end AxiomeToolchain.Source.DriverRuns
