import AxiomeToolchain.Source.Linker
import AxiomeToolchain.Guarantees.DriverRouting

/-!
# Which defaults axld injects

A default is wanted unless the user set the same thing. axld looks at the start
of tokens, or for a text inside them, so a flag or a file name that only shares
it with a setting suppresses the default as well.
-/

set_option autoImplicit false

namespace AxiomeToolchain.Guarantees.LinkerDefaults
open AxiomeToolchain.Library.OptionList
open AxiomeToolchain.Source.Driver
open AxiomeToolchain.Source.Linker
open AxiomeToolchain.Guarantees.DriverRouting (willingHost)

/-! ## What the user set

An operand of another option sets nothing, and so does what follows a lone `--`. -/

/-- The token is `name` or `name=value`. -/
def isKeyword (name : String) (a : Token) : Bool :=
  a = text name || (text name ++ text "=").isPrefixOf a

/-- A max-page-size keyword after `-z`, in the next token or in the same. -/
def setsPageSize (ld : Ld) (args : List Token) : Bool :=
  (ld.options args).any (fun item =>
    match item with
    | .pair option keyword => option = text "-z" && isKeyword "max-page-size" keyword
    | .word a => isKeyword "-zmax-page-size" a
    | .dangling _ => false)

def setsHashStyle (ld : Ld) (args : List Token) : Bool :=
  (ld.options args).any (fun item =>
    isKeyword "--hash-style" item.first || isKeyword "-hash-style" item.first)

/-- A script is named after `-T`, in the same token or in the next. -/
def givesScript (ld : Ld) (args : List Token) : Bool :=
  (ld.options args).any (fun item => startsWith "-T" item.first && ld.script item)

/-! ## The promise -/

/-- The command is the injected defaults and then the user's tokens, and each
default is there exactly when the user did not set the same thing. -/
structure InjectedAsNeeded (ld : Ld) (host : Host) (args command : List Token) : Prop where
  forwarded : command = ldCmd host args ++ (defaults host args).flatten ++ args
  pageSize : [text "-z", text "max-page-size=0x1000"] ∈ defaults host args ↔
    setsPageSize ld args = false
  hashStyle : [text "--hash-style=sysv"] ∈ defaults host args ↔ setsHashStyle ld args = false
  script : (∃ script, [text "-T", script] ∈ defaults host args) ↔ givesScript ld args = false

/-- Only the settings themselves look like the settings. -/
structure NothingAlike (ld : Ld) (args : List Token) : Prop where
  pageSize : ∀ a ∈ args, startsWith "-z" a = true → setsPageSize ld args = true
  hashStyle : ∀ a ∈ args, contains "hash-style" a = true → setsHashStyle ld args = true
  script : ∀ a ∈ args, startsWith "-T" a = true → givesScript ld args = true

variable {ld : Ld} {host : Host} {args : List Token} {a : Token}

theorem isKeyword_start {name : String} (keyword : isKeyword name a = true) :
    text name <+: a := by
  rw [isKeyword, Bool.or_eq_true, decide_eq_true_eq, List.isPrefixOf_iff_prefix] at keyword
  rcases keyword with rfl | longer
  · exact List.prefix_refl _
  · exact (List.prefix_append _ _).trans longer

/-! ## What axld sees -/

/-- Every setting is seen. -/
theorem setsPageSize_seen (ld : Ld) (sets : setsPageSize ld args = true) : hasZ args = true := by
  rw [hasZ_iff]
  rw [setsPageSize, List.any_eq_true] at sets
  obtain ⟨item, member, sets⟩ := sets
  refine ⟨item.first, options_first member, ?_⟩
  cases item with
  | pair option keyword =>
    rw [Bool.and_eq_true, decide_eq_true_eq] at sets
    rw [Item.first, sets.1]
    decide
  | word a =>
    have start : text "-z" <+: text "-zmax-page-size" := by decide
    rw [startsWith, List.isPrefixOf_iff_prefix]
    exact start.trans (isKeyword_start sets)
  | dangling option => cases sets

theorem givesScript_seen (ld : Ld) (gives : givesScript ld args = true) : hasT args = true := by
  rw [hasT_iff]
  rw [givesScript, List.any_eq_true] at gives
  obtain ⟨item, member, test⟩ := gives
  rw [Bool.and_eq_true] at test
  exact ⟨item.first, options_first member, test.1⟩

theorem setsHashStyle_seen (ld : Ld) (sets : setsHashStyle ld args = true) : hasHash args = true := by
  rw [hasHash_iff]
  rw [setsHashStyle, List.any_eq_true] at sets
  obtain ⟨item, member, keyword⟩ := sets
  have inside : text "hash-style" <:+: text "--hash-style" ∧
      text "hash-style" <:+: text "-hash-style" := by decide
  refine ⟨item.first, options_first member, ?_⟩
  rw [contains, decide_eq_true_eq]
  rcases Bool.or_eq_true _ _ ▸ keyword with long | short
  · exact inside.1.trans (isKeyword_start long).isInfix
  · exact inside.2.trans (isKeyword_start short).isInfix

/-! ## Each default -/

theorem pageSize_injected (host : Host) (args : List Token) :
    [text "-z", text "max-page-size=0x1000"] ∈ defaults host args ↔ hasZ args = false := by
  have other : text "-z" ≠ text "-T" ∧ text "-z" ≠ text "-e" := by decide
  rw [mem_defaults]
  simp [other]

theorem hashStyle_injected (host : Host) (args : List Token) :
    [text "--hash-style=sysv"] ∈ defaults host args ↔ hasHash args = false := by
  have other : text "--hash-style=sysv" ≠ text "-pie" := by decide
  rw [mem_defaults]
  simp [other]

theorem script_injected (host : Host) (args : List Token) :
    (∃ script, [text "-T", script] ∈ defaults host args) ↔ hasT args = false := by
  have other : text "-T" ≠ text "-z" ∧ text "-T" ≠ text "-e" := by decide
  simp only [mem_defaults]
  simp [other]

/-- When settings are seen, a default is injected as needed unless something else
was taken for the setting. -/
theorem as_needed_iff {injected : Prop} {seen set : Bool} {looks : Token → Prop}
    (inserted : injected ↔ seen = false) (sees : set = true → seen = true)
    (seenBy : seen = true ↔ ∃ a ∈ args, looks a) :
    (injected ↔ set = false) ↔ ∀ a ∈ args, looks a → set = true := by
  have flat : (∀ a ∈ args, looks a → set = true) ↔ (seen = true → set = true) := by
    rw [seenBy]
    constructor
    · intro each ⟨a, member, like⟩
      exact each a member like
    · intro all a member like
      exact all ⟨a, member, like⟩
  rw [inserted, flat]
  cases seen with
  | false =>
    have unset : set = false := Bool.eq_false_iff.mpr (fun given => by simpa using sees given)
    simp [unset]
  | true => simp

/-- axld injects each default as needed, for any linker, exactly when nothing in
the arguments only looks like a setting. -/
theorem injected_as_needed_iff (ld : Ld) {run : List Token → Option Int} {command : List Token}
    {exit : Int} (linked : axld host run args = .linked command exit) :
    InjectedAsNeeded ld host args command ↔ NothingAlike ld args := by
  have pageSize := as_needed_iff (pageSize_injected host args) (setsPageSize_seen ld) hasZ_iff
  have hashStyle := as_needed_iff (hashStyle_injected host args) (setsHashStyle_seen ld)
    hasHash_iff
  have script := as_needed_iff (script_injected host args) (givesScript_seen ld) hasT_iff
  constructor
  · intro needed
    exact ⟨pageSize.mp needed.pageSize, hashStyle.mp needed.hashStyle, script.mp needed.script⟩
  · intro plain
    exact ⟨axld_linked linked, pageSize.mpr plain.pageSize, hashStyle.mpr plain.hashStyle,
      script.mpr plain.script⟩

/-- `-o app -z max-page-size=0x4000 -Tmy.ld --hash-style both x.o` -/
def ownSettings : List Token :=
  [text "-o", text "app", text "-z", text "max-page-size=0x4000", text "-Tmy.ld",
    text "--hash-style", text "both", text "x.o"]

theorem injected_as_needed_iff_own :
    InjectedAsNeeded gnuLd willingHost ownSettings (final willingHost ownSettings) := by
  have linked : axld willingHost (fun _ => some 0) ownSettings =
      .linked (final willingHost ownSettings) 0 := if_neg (by decide)
  exact (injected_as_needed_iff gnuLd linked).mpr ⟨by decide, by decide, by decide⟩

/-- `-o app -z now -Ttext=0x1000 hash-style.o` -/
def strayFlags : List Token :=
  [text "-o", text "app", text "-z", text "now", text "-Ttext=0x1000", text "hash-style.o"]

/-- None of the three settings is made, and none of their defaults is injected. -/
theorem stray_flags_drop_defaults :
    axld willingHost (fun _ => some 0) strayFlags =
        .linked ([text "ld", text "-m", text "elf_x86_64", text "-pie", text "-e", text "_start"] ++
          strayFlags) 0 ∧
      setsPageSize gnuLd strayFlags = false ∧ setsHashStyle gnuLd strayFlags = false ∧
      givesScript gnuLd strayFlags = false ∧
      ¬ InjectedAsNeeded gnuLd willingHost strayFlags (final willingHost strayFlags) := by
  have command : final willingHost strayFlags =
      [text "ld", text "-m", text "elf_x86_64", text "-pie", text "-e", text "_start"] ++
        strayFlags := by decide
  refine ⟨?_, by decide, by decide, by decide, fun needed => ?_⟩
  · rw [axld, if_neg (by decide), command]
    rfl
  · exact absurd (needed.pageSize.mpr (by decide)) (by decide)

-- the operand of `-o`, and an abbreviation of `-Tbss`
example : givesScript gnuLd [text "-o", text "-T", text "x.o"] = false ∧
    givesScript gnuLd [text "-Tb=0x5000000", text "x.o"] = false ∧
    hasT [text "-o", text "-T", text "x.o"] = true := by decide

end AxiomeToolchain.Guarantees.LinkerDefaults
