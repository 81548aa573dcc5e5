import AxiomeToolchain.Source.Driver

/-!
# The linker wrapper axld

bin/axld:54-119. Of the `Host` axld uses its SDK and the linker that `find_ld`
returns. What it prints is not modelled. The linker itself is not part of the
repository: how it reads its options is a parameter.
-/

set_option autoImplicit false

namespace AxiomeToolchain.Source.Linker
open AxiomeToolchain.Library.OptionList
open AxiomeToolchain.Source.Driver

/-- `part in a`, for texts. -/
def contains (part : String) (a : Token) : Bool := text part <:+: a

def hasT (args : List Token) : Bool := args.any (fun a => startsWith "-T" a || a = text "-T")

def hasO (args : List Token) : Bool := text "-o" ∈ args

def hasPie (args : List Token) : Bool := text "-pie" ∈ args || text "--pie" ∈ args

def hasHash (args : List Token) : Bool := args.any (contains "hash-style")

def hasZ (args : List Token) : Bool := args.any (fun a => startsWith "-z" a || a = text "-z")

def hasE (args : List Token) : Bool := text "-e" ∈ args

/-- `out`; `none` when nothing follows `-o`. -/
def output (args : List Token) : Option Token :=
  if hasO args then tokenAfterO args else some (text "a.out")

/-- `out and "libc" in out` -/
def namesLibc (args : List Token) : Bool :=
  (output args).any (fun out => out ≠ [] && contains "libc" out)

def defaultScript (host : Host) : Token := under host.sdk "ldscripts/link.ld"

def libcScript (host : Host) : Token := under host.sdk "ldscripts/libc.ld"

/-- The lists that are appended to `pre`, in order. -/
def defaults (host : Host) (args : List Token) : List (List Token) :=
  (if !hasT args then
    if namesLibc args then [[text "-T", libcScript host]] else [[text "-T", defaultScript host]]
  else []) ++
  (if !hasPie args then if text "-shared" ∉ args then [[text "-pie"]] else [] else []) ++
  (if !hasHash args then [[text "--hash-style=sysv"]] else []) ++
  (if !hasZ args then [[text "-z", text "max-page-size=0x1000"]] else []) ++
  (if !hasE args ∧ text "-shared" ∉ args then [[text "-e", text "_start"]] else [])

/-- `ld_cmd` -/
def ldCmd (host : Host) (args : List Token) : List Token :=
  [axldLd host] ++
  (if text "x86_64-elf" <:+: axldLd host then [] else [text "-m", text "elf_x86_64"]) ++
  (if hasO args then [] else [text "-o", text "a.out"])

/-- `final` -/
def final (host : Host) (args : List Token) : List Token :=
  ldCmd host args ++ (defaults host args).flatten ++ args

inductive Outcome where
  | help
  | linked (command : List Token) (exit : Int)

/-- `run` is the return code of a command, and `none` when its program is not
found. -/
def axld (host : Host) (run : List Token → Option Int) (args : List Token) : Outcome :=
  if args = [] ∨ text "-h" ∈ args ∨ text "--help" ∈ args then .help
  else .linked (final host args) ((run (final host args)).getD 127)

/-! ## The linker that is called -/

inductive OutputType where
  | shared | pie | executable | relocatable
  deriving DecidableEq, Repr

structure Ld where
  /-- Which options take the next token as their operand. -/
  grammar : Grammar Token
  /-- The option names a linker script. -/
  script : Item Token → Bool
  /-- The kind of output that the option asks for. -/
  output : Item Token → Option OutputType

variable {ld : Ld} {host : Host} {args : List Token} {item : Item Token}

/-- What ld reads, up to a lone `--`. -/
def Ld.options (ld : Ld) (tokens : List Token) : List (Item Token) :=
  (ld.grammar.read tokens).takeWhile (fun item => item ≠ .word (text "--"))

/-- Of several options the last one counts. -/
def Ld.outputType (ld : Ld) (tokens : List Token) : Option OutputType :=
  ((ld.options tokens).filterMap ld.output).getLast?

theorem options_first (member : item ∈ ld.options args) : item.first ∈ args :=
  mem_read_first (List.takeWhile_prefix _ |>.subset member)

/-! ## GNU ld

The options of GNU ld that the examples below are about. -/

/-- `-Ttext` and the like, which set the address of a section; they can be
abbreviated. -/
def addressOption (a : Token) : Bool :=
  let name := a.takeWhile (· ≠ '=')
  2 < name.length && ["-Ttext", "-Tdata", "-Tbss", "-Ttext-segment", "-Trodata-segment",
    "-Tldata-segment"].any (fun long => name.isPrefixOf (text long))

def gnuLd : Ld where
  grammar :=
    { opens := fun a =>
        a ∈ ["-o", "-m", "-T", "-z", "-e", "-L", "-l", "-h", "-soname", "-G", "--hash-style",
          "-hash-style"].map text || (addressOption a && '=' ∉ a)
      -- without a number `-G` means `-shared`
      accepts := fun option a => option ≠ text "-G" || a.head?.any Char.isDigit }
  script := fun item =>
    match item with
    | .pair option _ => option = text "-T"
    | .word a => startsWith "-T" a && !addressOption a
    | .dangling _ => false
  output := fun item =>
    match item with
    | .word a =>
      if a ∈ ["-shared", "--shared", "-Bshareable", "--Bshareable"].map text then some .shared
      else if a ∈ ["-pie", "--pie", "-pic-executable", "--pic-executable"].map text then some .pie
      else if a ∈ ["-no-pie", "--no-pie"].map text then some .executable
      else if a ∈ ["-r", "-i", "-Ur", "--relocatable", "-relocatable"].map text then
        some .relocatable
      else none
    | .dangling option => if option = text "-G" then some .shared else none
    | .pair _ _ => none

/-! ## What axld sees -/

/-- `a.startswith(..)` covers `a == ..`. -/
theorem any_start_iff (start : String) :
    args.any (fun a => startsWith start a || a = text start) = true ↔
      ∃ a ∈ args, startsWith start a = true := by
  rw [List.any_eq_true]
  refine exists_congr (fun a => and_congr_right (fun _ => ?_))
  rw [Bool.or_eq_true, decide_eq_true_eq, or_iff_left_iff_imp]
  rintro rfl
  rw [startsWith, List.isPrefixOf_iff_prefix]

theorem hasZ_iff : hasZ args = true ↔ ∃ a ∈ args, startsWith "-z" a = true := any_start_iff "-z"

theorem hasT_iff : hasT args = true ↔ ∃ a ∈ args, startsWith "-T" a = true := any_start_iff "-T"

theorem hasHash_iff : hasHash args = true ↔ ∃ a ∈ args, contains "hash-style" a = true := by
  rw [hasHash, List.any_eq_true]

/-! ## The defaults one by one -/

theorem axld_linked_iff {run : List Token → Option Int} {command : List Token} :
    (∃ exit, axld host run args = .linked command exit) ↔
      (args ≠ [] ∧ text "-h" ∉ args ∧ text "--help" ∉ args) ∧ command = final host args := by
  unfold axld
  split
  · next help => simp [← not_or, help]
  · next links =>
    simp only [not_or] at links
    simp [links, eq_comm]

theorem axld_linked {run : List Token → Option Int} {command : List Token} {exit : Int}
    (linked : axld host run args = .linked command exit) : command = final host args :=
  (axld_linked_iff.mp ⟨exit, linked⟩).2

theorem mem_defaults {block : List Token} :
    block ∈ defaults host args ↔
      (hasT args = false ∧
        block = [text "-T", if namesLibc args then libcScript host else defaultScript host]) ∨
      (hasPie args = false ∧ text "-shared" ∉ args ∧ block = [text "-pie"]) ∨
      (hasHash args = false ∧ block = [text "--hash-style=sysv"]) ∨
      (hasZ args = false ∧ block = [text "-z", text "max-page-size=0x1000"]) ∨
      (hasE args = false ∧ text "-shared" ∉ args ∧ block = [text "-e", text "_start"]) := by
  simp only [defaults, List.mem_append, List.mem_ite_nil_right, Bool.not_eq_true', or_assoc,
    and_assoc, List.mem_singleton]
  cases namesLibc args <;> simp

end AxiomeToolchain.Source.Linker
