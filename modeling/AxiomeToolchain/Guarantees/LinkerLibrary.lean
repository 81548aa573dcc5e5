import AxiomeToolchain.Source.Linker
import AxiomeToolchain.Guarantees.DriverRouting

/-!
# The library script and application mode

axld chooses its script by the name of the output, and `-pie` and `-e _start` by
the token `-shared`. It neither adds `-shared` nor knows its other spellings, and
for the linker the last of `-shared` and `-pie` counts, so the choices agree only
under conditions on the arguments.
-/

set_option autoImplicit false

namespace AxiomeToolchain.Guarantees.LinkerLibrary
open AxiomeToolchain.Library.OptionList
open AxiomeToolchain.Source.Driver
open AxiomeToolchain.Source.Linker
open AxiomeToolchain.Guarantees.DriverRouting (willingHost)

/-- What ld documents of the options that axld adds. -/
structure Documented (ld : Ld) : Prop where
  operands : ∀ option ∈ ["-m", "-o", "-T", "-z", "-e"].map text, ld.grammar.opens option = true ∧
    ∀ a, ld.grammar.accepts option a = true ∧ ld.output (.pair option a) = none
  hashStyle : ld.grammar.opens (text "--hash-style=sysv") = false ∧
    ld.output (.word (text "--hash-style=sysv")) = none
  pie : ld.grammar.opens (text "-pie") = false ∧ ld.output (.word (text "-pie")) = some .pie

/-- Some `-shared` may have become `--shared`. -/
def Respelled (args args' : List Token) : Prop :=
  List.Forall₂ (fun a b => b = a ∨ (a = text "-shared" ∧ b = text "--shared")) args args'

/-- The promise, of one command. -/
structure ModesApart (ld : Ld) (host : Host) (args command : List Token) : Prop where
  library : [text "-T", libcScript host] ∈ defaults host args →
    ld.outputType command.tail = some .shared ∧ [text "-pie"] ∉ defaults host args ∧
      [text "-e", text "_start"] ∉ defaults host args
  spelling : ∀ args', Respelled args args' → defaults host args' = defaults host args

/-- What the promise needs: a library asks for a shared object last, and axld is
kept from adding the rest; and `-shared` comes with the user's own `-pie` and
`-e`. -/
structure SharedSpelledOut (ld : Ld) (args : List Token) : Prop where
  library : hasT args = false → namesLibc args = true → ld.outputType args = some .shared ∧
    (text "-shared" ∈ args ∨ (hasPie args = true ∧ hasE args = true))
  spelling : text "-shared" ∈ args → hasPie args = true ∧ hasE args = true

variable {ld : Ld} {host : Host} {args args' : List Token}

/-! ## What axld injects -/

theorem libc_selected_iff : [text "-T", libcScript host] ∈ defaults host args ↔
    hasT args = false ∧ namesLibc args = true := by
  have scripts : libcScript host ≠ defaultScript host := by
    intro same
    rw [libcScript, defaultScript, under, under, List.append_cancel_left_eq] at same
    exact absurd same (by decide)
  have other : text "-T" ≠ text "-z" ∧ text "-T" ≠ text "-e" := by decide
  rw [mem_defaults]
  cases namesLibc args <;> simp [other, scripts]

theorem pie_injected_iff :
    [text "-pie"] ∈ defaults host args ↔ hasPie args = false ∧ text "-shared" ∉ args := by
  have other : text "-pie" ≠ text "--hash-style=sysv" := by decide
  rw [mem_defaults]
  simp [other]

theorem start_injected_iff : [text "-e", text "_start"] ∈ defaults host args ↔
    hasE args = false ∧ text "-shared" ∉ args := by
  have other : text "-e" ≠ text "-z" ∧ text "-e" ≠ text "-T" := by decide
  rw [mem_defaults]
  simp [other]

/-! ## What the linker reads of it -/

/-- The defaults, as ld reads them. -/
def defaultOptions (host : Host) (args : List Token) : List (Item Token) :=
  (if hasT args then []
    else [.pair (text "-T") (if namesLibc args then libcScript host else defaultScript host)]) ++
  (if hasPie args ∨ text "-shared" ∈ args then [] else [.word (text "-pie")]) ++
  (if hasHash args then [] else [.word (text "--hash-style=sysv")]) ++
  (if hasZ args then [] else [.pair (text "-z") (text "max-page-size=0x1000")]) ++
  (if hasE args ∨ text "-shared" ∈ args then [] else [.pair (text "-e") (text "_start")])

/-- What axld puts in front of the arguments, as ld reads it. -/
def ownOptions (host : Host) (args : List Token) : List (Item Token) :=
  (if text "x86_64-elf" <:+: axldLd host then [] else [.pair (text "-m") (text "elf_x86_64")]) ++
  (if hasO args then [] else [.pair (text "-o") (text "a.out")]) ++
  defaultOptions host args

theorem defaults_tokens (host : Host) (args : List Token) :
    (defaults host args).flatten = (defaultOptions host args).flatMap Item.tokens := by
  rw [defaults, defaultOptions]
  simp only [List.flatten_append, List.flatMap_append]
  congr 1
  · congr 1
    · congr 1
      · congr 1
        · cases hasT args <;> cases namesLibc args <;> rfl
        · cases hasPie args <;> by_cases short : text "-shared" ∈ args <;> simp [short, Item.tokens]
      · cases hasHash args <;> rfl
    · cases hasZ args <;> rfl
  · cases hasE args <;> by_cases short : text "-shared" ∈ args <;> simp [short, Item.tokens]

theorem final_tail (host : Host) (args : List Token) :
    (final host args).tail = (ownOptions host args).flatMap Item.tokens ++ args := by
  rw [final, ldCmd, defaults_tokens, ownOptions]
  simp only [List.flatMap_append, List.cons_append, List.tail_cons]
  congr 2
  congr 1
  · split <;> rfl
  · cases hasO args <;> rfl

/-- An item of axld's own is read back from its tokens and asks for no shared
object. -/
structure OwnItem (ld : Ld) (item : Item Token) : Prop where
  proper : ld.grammar.Proper item
  closed : ∀ option, item ≠ .dangling option
  option : item ≠ .word (text "--")
  output : ld.output item ≠ some .shared

theorem own_pair (documented : Documented ld) {option : Token}
    (known : option ∈ ["-m", "-o", "-T", "-z", "-e"].map text) (operand : Token) :
    OwnItem ld (.pair option operand) := by
  obtain ⟨opens, all⟩ := documented.operands option known
  obtain ⟨accepts, silent⟩ := all operand
  exact ⟨⟨opens, accepts⟩, by simp, by simp, by simp [silent]⟩

theorem ownOptions_own (documented : Documented ld) (host : Host) (args : List Token) :
    ∀ item ∈ ownOptions host args, OwnItem ld item := by
  have pie : OwnItem ld (.word (text "-pie")) :=
    ⟨documented.pie.1, by simp, by decide, by simp [documented.pie.2]⟩
  have hash : OwnItem ld (.word (text "--hash-style=sysv")) :=
    ⟨documented.hashStyle.1, by simp, by decide, by simp [documented.hashStyle.2]⟩
  intro item member
  simp only [ownOptions, defaultOptions, List.mem_append, List.mem_ite_nil_left,
    List.mem_singleton, or_assoc] at member
  rcases member with ⟨-, rfl⟩ | ⟨-, rfl⟩ | ⟨-, rfl⟩ | ⟨-, rfl⟩ | ⟨-, rfl⟩ | ⟨-, rfl⟩ | ⟨-, rfl⟩
  · exact own_pair documented (by decide) _
  · exact own_pair documented (by decide) _
  · exact own_pair documented (by decide) _
  · exact pie
  · exact hash
  · exact own_pair documented (by decide) _
  · exact own_pair documented (by decide) _

/-- What comes first is overridden by what asks for an output later. -/
theorem outputType_append {items : List (Item Token)} (own : ∀ item ∈ items, OwnItem ld item)
    (args : List Token) : ld.outputType (items.flatMap Item.tokens ++ args) = some .shared ↔
      ld.outputType args = some .shared := by
  obtain ⟨complete, same⟩ := read_items items (fun item member => (own item member).proper)
    (fun o member => (own _ member).closed o rfl)
  have options : ld.options (items.flatMap Item.tokens ++ args) = items ++ ld.options args := by
    rw [Ld.options, complete.read_append, same, List.takeWhile_append_of_pos]
    · rfl
    · intro item member
      exact decide_eq_true (own item member).option
  have before : (items.filterMap ld.output).getLast? ≠ some .shared := by
    intro last
    obtain ⟨item, member, asks⟩ := List.mem_filterMap.mp (List.mem_of_getLast? last)
    exact (own item member).output asks
  rw [Ld.outputType, options, List.filterMap_append, List.getLast?_append, ← Ld.outputType]
  cases asked : ld.outputType args with
  | none => simpa using before
  | some kind => simp

/-- axld itself never asks for a shared object. -/
theorem final_shared (documented : Documented ld) (host : Host) (args : List Token) :
    ld.outputType (final host args).tail = some .shared ↔ ld.outputType args = some .shared := by
  rw [final_tail]
  exact outputType_append (ownOptions_own documented host args) args

/-! ## Other spellings -/

theorem respelled_any (test : Token → Bool)
    (same : test (text "--shared") = test (text "-shared")) (respelled : Respelled args args') :
    args'.any test = args.any test := by
  induction respelled with
  | nil => rfl
  | cons first rest ih =>
    rw [List.any_cons, List.any_cons, ih]
    rcases first with rfl | ⟨rfl, rfl⟩
    · rfl
    · rw [same]

theorem respelled_mem {a : Token} (short : a ≠ text "-shared") (long : a ≠ text "--shared")
    (respelled : Respelled args args') : a ∈ args' ↔ a ∈ args := by
  have tested := respelled_any (fun b => decide (b = a))
    (by rw [decide_eq_false short.symm, decide_eq_false long.symm]) respelled
  rw [Bool.eq_iff_iff, List.any_eq_true, List.any_eq_true] at tested
  simpa only [decide_eq_true_eq, exists_eq_right] using tested

theorem respelled_self (none : text "-shared" ∉ args) (respelled : Respelled args args') :
    args' = args := by
  induction respelled with
  | nil => rfl
  | cons first rest ih =>
    rw [List.mem_cons, not_or] at none
    rcases first with rfl | ⟨rfl, -⟩
    · rw [ih none.2]
    · exact absurd rfl none.1

/-- All of them respelled. -/
def respellAll (args : List Token) : List Token :=
  args.map (fun a => if a = text "-shared" then text "--shared" else a)

theorem respellAll_respelled (args : List Token) : Respelled args (respellAll args) := by
  rw [Respelled, respellAll, List.forall₂_map_right_iff, List.forall₂_same]
  intro a _
  split
  · next short => exact .inr ⟨short, rfl⟩
  · exact .inl rfl

theorem respellAll_none (args : List Token) : text "-shared" ∉ respellAll args := by
  have other : text "--shared" ≠ text "-shared" := by decide
  rw [respellAll, List.mem_map]
  rintro ⟨a, -, same⟩
  split at same
  · exact other same
  · next ne => exact ne same

/-- The output name is the same, but for its spelling of `-shared`. -/
theorem respelled_afterO (respelled : Respelled args args') :
    tokenAfterO args' = tokenAfterO args ∨
      (tokenAfterO args = some (text "-shared") ∧ tokenAfterO args' = some (text "--shared")) := by
  have other : text "-shared" ≠ text "-o" ∧ text "--shared" ≠ text "-o" := by decide
  have place : args'.idxOf (text "-o") = args.idxOf (text "-o") := by
    induction respelled with
    | nil => rfl
    | cons first rest ih =>
      rcases first with rfl | ⟨rfl, rfl⟩
      · rw [List.idxOf_cons, List.idxOf_cons, ih]
      · rw [List.idxOf_cons_ne _ other.2, List.idxOf_cons_ne _ other.1, ih]
  have each : ∀ i : Nat, args'[i]? = args[i]? ∨
      (args[i]? = some (text "-shared") ∧ args'[i]? = some (text "--shared")) := by
    clear place
    induction respelled with
    | nil => exact fun i => .inl rfl
    | cons first rest ih =>
      intro i
      cases i with
      | zero =>
        rcases first with rfl | ⟨rfl, rfl⟩
        · exact .inl rfl
        · exact .inr ⟨rfl, rfl⟩
      | succ i => exact ih i
  rw [tokenAfterO, tokenAfterO, place]
  exact each _

theorem namesLibc_respelled (respelled : Respelled args args') :
    namesLibc args' = namesLibc args := by
  have present : hasO args' = hasO args := by
    rw [hasO, hasO, decide_eq_decide]
    exact respelled_mem (by decide) (by decide) respelled
  rw [namesLibc, namesLibc, output, output, present]
  split
  · rcases respelled_afterO respelled with same | ⟨short, long⟩
    · rw [same]
    · rw [short, long]
      decide
  · rfl

theorem hasE_respelled (respelled : Respelled args args') : hasE args' = hasE args := by
  rw [hasE, hasE, decide_eq_decide]
  exact respelled_mem (by decide) (by decide) respelled

theorem hasPie_respelled (respelled : Respelled args args') : hasPie args' = hasPie args := by
  have one : text "-pie" ∈ args' ↔ text "-pie" ∈ args :=
    respelled_mem (by decide) (by decide) respelled
  have two : text "--pie" ∈ args' ↔ text "--pie" ∈ args :=
    respelled_mem (by decide) (by decide) respelled
  rw [hasPie, hasPie, decide_eq_decide.mpr one, decide_eq_decide.mpr two]

/-- With `-pie` and `-e` given, no default depends on the spelling. -/
theorem defaults_respelled (pie : hasPie args = true) (start : hasE args = true)
    (respelled : Respelled args args') : defaults host args' = defaults host args := by
  have t : hasT args' = hasT args := respelled_any _ (by decide) respelled
  have h : hasHash args' = hasHash args := respelled_any _ (by decide) respelled
  have z : hasZ args' = hasZ args := respelled_any _ (by decide) respelled
  simp only [defaults, t, h, z, hasPie_respelled respelled, hasE_respelled respelled, pie, start,
    namesLibc_respelled respelled]
  simp

/-! ## The promise -/

theorem library_iff (documented : Documented ld) :
    ([text "-T", libcScript host] ∈ defaults host args →
      ld.outputType (final host args).tail = some .shared ∧ [text "-pie"] ∉ defaults host args ∧
        [text "-e", text "_start"] ∉ defaults host args) ↔
      (hasT args = false → namesLibc args = true → ld.outputType args = some .shared ∧
        (text "-shared" ∈ args ∨ (hasPie args = true ∧ hasE args = true))) := by
  rw [libc_selected_iff, final_shared documented, pie_injected_iff, start_injected_iff, and_imp]
  refine imp_congr_right (fun _ => imp_congr_right (fun _ => and_congr_right (fun _ => ?_)))
  by_cases short : text "-shared" ∈ args
  · simp [short]
  · simp [short]

theorem spelling_iff (host : Host) (args : List Token) :
    (∀ args', Respelled args args' → defaults host args' = defaults host args) ↔
      (text "-shared" ∈ args → hasPie args = true ∧ hasE args = true) := by
  constructor
  · intro same short
    have all := same _ (respellAll_respelled args)
    have none := respellAll_none args
    have pie := hasPie_respelled (respellAll_respelled args)
    have start := hasE_respelled (respellAll_respelled args)
    constructor
    · by_contra missing
      have injected : [text "-pie"] ∈ defaults host (respellAll args) :=
        pie_injected_iff.mpr ⟨pie ▸ Bool.eq_false_iff.mpr missing, none⟩
      rw [all] at injected
      exact (pie_injected_iff.mp injected).2 short
    · by_contra missing
      have injected : [text "-e", text "_start"] ∈ defaults host (respellAll args) :=
        start_injected_iff.mpr ⟨start ▸ Bool.eq_false_iff.mpr missing, none⟩
      rw [all] at injected
      exact (start_injected_iff.mp injected).2 short
  · intro both args' respelled
    by_cases short : text "-shared" ∈ args
    · exact defaults_respelled (both short).1 (both short).2 respelled
    · rw [respelled_self short respelled]

/-- axld keeps the library script and application mode apart, in either spelling,
exactly for these arguments. -/
theorem modes_apart_iff (documented : Documented ld) {run : List Token → Option Int}
    {command : List Token} {exit : Int} (linked : axld host run args = .linked command exit) :
    ModesApart ld host args command ↔ SharedSpelledOut ld args := by
  obtain rfl := axld_linked linked
  constructor
  · intro apart
    exact ⟨(library_iff documented).mp apart.library, (spelling_iff host args).mp apart.spelling⟩
  · intro spelled
    exact ⟨(library_iff documented).mpr spelled.library,
      (spelling_iff host args).mpr spelled.spelling⟩

theorem gnuLd_documented : Documented gnuLd := by
  refine ⟨?_, by decide, by decide⟩
  have takes : ∀ option ∈ ["-m", "-o", "-T", "-z", "-e"].map text,
      gnuLd.grammar.opens option = true ∧ option ≠ text "-G" := by decide
  intro option known
  obtain ⟨opens, other⟩ := takes option known
  refine ⟨opens, fun a => ⟨?_, rfl⟩⟩
  simp [gnuLd, other]

/-- `-o libc.sl -pie -e 0 --shared x.o` -/
def spelledOut : List Token :=
  [text "-o", text "libc.sl", text "-pie", text "-e", text "0", text "--shared", text "x.o"]

/-- `-o libc.sl --shared -pie -e 0 x.o` -/
def overridden : List Token :=
  [text "-o", text "libc.sl", text "--shared", text "-pie", text "-e", text "0", text "x.o"]

/-- The order decides: `--shared` is the last word, or `-pie` is. -/
theorem modes_apart_iff_spelled :
    ModesApart gnuLd willingHost spelledOut (final willingHost spelledOut) ∧
      ¬ ModesApart gnuLd willingHost overridden (final willingHost overridden) := by
  have linked : axld willingHost (fun _ => some 0) spelledOut =
      .linked (final willingHost spelledOut) 0 := if_neg (by decide)
  have linked' : axld willingHost (fun _ => some 0) overridden =
      .linked (final willingHost overridden) 0 := if_neg (by decide)
  refine ⟨(modes_apart_iff gnuLd_documented linked).mpr ⟨by decide, by decide⟩, ?_⟩
  rw [modes_apart_iff gnuLd_documented linked']
  exact fun spelled => absurd (spelled.library (by decide) (by decide)).1 (by decide)

/-- `-o libc.sl x.o` -/
def plainLibrary : List Token := [text "-o", text "libc.sl", text "x.o"]

/-- `-o libc.sl -shared x.o` -/
def shortSpelling : List Token := [text "-o", text "libc.sl", text "-shared", text "x.o"]

/-- `-o libc.sl --shared x.o` -/
def longSpelling : List Token := [text "-o", text "libc.sl", text "--shared", text "x.o"]

/-- Without `-shared` the library script comes with `-pie -e _start`, and so it
does with `--shared`, but not with `-shared`. -/
theorem library_linked_as_application :
    axld willingHost (fun _ => some 0) plainLibrary = .linked ([text "ld", text "-m",
        text "elf_x86_64", text "-T", text "/ldscripts/libc.ld", text "-pie",
        text "--hash-style=sysv", text "-z", text "max-page-size=0x1000", text "-e",
        text "_start"] ++ plainLibrary) 0 ∧
      ¬ ModesApart gnuLd willingHost plainLibrary (final willingHost plainLibrary) ∧
      Respelled shortSpelling longSpelling ∧
      defaults willingHost shortSpelling = [[text "-T", text "/ldscripts/libc.ld"],
        [text "--hash-style=sysv"], [text "-z", text "max-page-size=0x1000"]] ∧
      defaults willingHost longSpelling = [[text "-T", text "/ldscripts/libc.ld"], [text "-pie"],
        [text "--hash-style=sysv"], [text "-z", text "max-page-size=0x1000"],
        [text "-e", text "_start"]] := by
  have command : final willingHost plainLibrary = [text "ld", text "-m", text "elf_x86_64",
      text "-T", text "/ldscripts/libc.ld", text "-pie", text "--hash-style=sysv", text "-z",
      text "max-page-size=0x1000", text "-e", text "_start"] ++ plainLibrary := by decide
  refine ⟨?_, fun apart => ?_, ?_, by decide, by decide⟩
  · rw [axld, if_neg (by decide), command]
    rfl
  · exact absurd (apart.library (by decide)).1 (by decide)
  · exact .cons (.inl rfl) (.cons (.inl rfl) (.cons (.inr ⟨rfl, rfl⟩) (.cons (.inl rfl) .nil)))

end AxiomeToolchain.Guarantees.LinkerLibrary
