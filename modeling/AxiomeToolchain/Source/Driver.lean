import AxiomeToolchain.Library.OptionList
import AxiomeToolchain.Library.Parts

/-!
# The compiler drivers axcc and axtcc

bin/axcc:68-184 and bin/axtcc:73-229, link mode. A token is the list of its
characters. What the drivers ask of the system is a `Host`: paths, which tools
exist, and the exit status of each command in the order they are run. The
messages on stderr and the removal of the temporary directory are not modelled.
-/

set_option autoImplicit false

namespace AxiomeToolchain.Source.Driver

abbrev Token := List Char

instance : LawfulBEq Token := inferInstance

def text (s : String) : Token := s.toList

/-- `a.endswith(..)`. -/
def endsWith (suffix : String) (a : Token) : Bool := (text suffix).isSuffixOf a

/-- `a.startswith(..)`. -/
def startsWith (start : String) (a : Token) : Bool := (text start).isPrefixOf a

def under (dir : Token) (name : String) : Token := dir ++ text "/" ++ text name

structure Host where
  sdk : Token
  /-- `find_cc()` of axcc. -/
  cc : Token
  /-- `find_gcc()` of axtcc. -/
  gcc : Token
  /-- `find_tcc()`. -/
  tcc : Option Token
  /-- `shutil.which("x86_64-elf-ld")`. -/
  whichLd : Option Token
  /-- `$HOME`, empty when it is not set. -/
  home : Token
  isFile : Token → Bool
  executable : Token → Bool
  axld : Token
  axldExists : Bool
  axldExecutable : Bool
  tmpdir : Token
  /-- The exit status of the n-th command. -/
  status : Nat → Int

/-- `os.path.basename`. -/
def basename (path : Token) : Token := (path.reverse.takeWhile (· ≠ '/')).reverse

/-- `.replace(".c", ".o")`. -/
def replaceDotC : Token → Token
  | '.' :: 'c' :: rest => '.' :: 'o' :: replaceDotC rest
  | ch :: rest => ch :: replaceDotC rest
  | [] => []

def objectPath (host : Host) (src : Token) : Token :=
  host.tmpdir ++ text "/" ++ replaceDotC (basename src)

/-- `cmd.insert(-3, a)`. -/
def insertThirdLast (cmd : List Token) (a : Token) : List Token :=
  cmd.take (cmd.length - 3) ++ a :: cmd.drop (cmd.length - 3)

/-- The loop that inserts the chosen tokens into a compile command. -/
def propagate (chosen : Token → Bool) (cmd : List Token) (tokens : List Token) : List Token :=
  tokens.foldl (fun cmd a => if chosen a then insertThirdLast cmd a else cmd) cmd

/-- A compile: the command as first built, and as it is run. -/
structure Compile where
  source : Token
  object : Token
  base : List Token
  argv : List Token

/-- A link: by the axld wrapper, or by the linker itself. -/
structure Link where
  wrapper : Bool
  before : List Token
  objects : List Token
  between : List Token
  forwarded : List Token

def Link.argv (link : Link) : List Token :=
  link.before ++ link.objects ++ link.between ++ link.forwarded

structure Build where
  compiles : List Compile
  link : Option Link
  exit : Int

inductive Mode where
  | help | version | hostRun | compileOnly | link
  deriving DecidableEq, Repr

def helpTokens : List Token := [text "-h", text "--help", text "-help"]

/-- `[a for a in args if a.endswith(".c")]`. -/
def cFiles (args : List Token) : List Token := args.filter (endsWith ".c")

def oFiles (args : List Token) : List Token := args.filter (endsWith ".o")

/-- `args[args.index("-o")+1]`; `none` when there is no such element. -/
def tokenAfterO (args : List Token) : Option Token := args[args.idxOf (text "-o") + 1]?

/-! ## Finding the linker -/

/-- `os.path.join(home, "opt/cross/bin/x86_64-elf-ld")` -/
def homeLd (host : Host) : Token :=
  if host.home = [] ∨ host.home.getLast? = some '/' then
    host.home ++ text "opt/cross/bin/x86_64-elf-ld"
  else under host.home "opt/cross/bin/x86_64-elf-ld"

/-- `find_ld`, which axld and axcc write with other lists: first the search path,
then the candidates that can be run, then the linkers of the host. -/
def findLd (host : Host) (candidates hostLinkers : List Token) : Token :=
  match host.whichLd.filter (text "x86_64-elf" <:+: ·) with
  | some p => p
  | none =>
    match candidates.find? (fun p => host.isFile p && host.executable p) with
    | some p => p
    | none => (hostLinkers.find? host.isFile).getD (text "ld")

/-- `find_ld` of bin/axld. -/
def axldLd (host : Host) : Token :=
  findLd host [homeLd host, text "/usr/local/bin/x86_64-elf-ld", text "/opt/cross/bin/x86_64-elf-ld"]
    [text "/usr/bin/ld", text "/usr/bin/ld.bfd"]

/-- `find_ld` of bin/axcc. -/
def axccLd (host : Host) : Token :=
  findLd host [homeLd host, text "/usr/local/bin/x86_64-elf-ld"] []

/-- bin/axtcc:213-217. -/
def axtccLd (host : Host) : Token :=
  let ld := (host.whichLd.filter host.isFile).getD (homeLd host)
  if host.isFile ld then ld else text "ld"

/-- The direct call of a linker, as both drivers write it up to `-o`. -/
def directLd (host : Host) (ld : Token) : List Token :=
  (if text "x86_64-elf" <:+: ld then [ld] else [ld, text "-m", text "elf_x86_64"]) ++
  [text "-pie", text "-T", under host.sdk "ldscripts/link.ld", text "--hash-style=sysv", text "-z",
    text "max-page-size=0x1000", text "-e", text "_start"]

/-! ## axcc -/

def axccMode (args : List Token) : Mode :=
  if args.head?.all (· ∈ helpTokens) then .help
  else if text "-c" ∈ args ∨ text "-S" ∈ args ∨ text "-E" ∈ args then .compileOnly
  else .link

def axBaseCflags (host : Host) : List Token :=
  [text "-ffreestanding", text "-nostdlib", text "-nostartfiles", text "-fno-builtin",
    text "-fno-stack-protector", text "-mno-red-zone", text "-mcmodel=small", text "-O2", text "-g",
    text "-pipe", text "-Wall", text "-Wextra", text "-I" ++ under host.sdk "include"]

/-- `-fPIC` is not in the base list, so line 66 adds it. -/
def axAppCflags (host : Host) : List Token := text "-fpie" :: text "-fPIC" :: axBaseCflags host

def axccOut (args : List Token) : Option Token :=
  if text "-o" ∈ args then tokenAfterO args else some (text "a.out")

/-- The loop over `skip` and `filtered`, lines 122-134. -/
def filterLoop (args : List Token) : Bool → List Token → List Token
  | _, [] => []
  | true, _ :: rest => filterLoop args false rest
  | false, a :: rest =>
    if a = text "-o" then filterLoop args true rest
    else if a ∈ cFiles args ∨ a ∈ oFiles args then filterLoop args false rest
    else a :: filterLoop args false rest

def filtered (args : List Token) : List Token := filterLoop args false args

def axccOption (a : Token) : Bool := startsWith "-D" a || startsWith "-I" a

def axccCompile (host : Host) (args : List Token) (src : Token) : Compile :=
  let obj := objectPath host src
  let cmd := host.cc :: axAppCflags host ++ [text "-c", src, text "-o", obj]
  { source := src, object := obj, base := cmd, argv := propagate axccOption cmd (filtered args) }

/-- Compiles until one fails, starting with the n-th command. -/
def compileLoop (host : Host) : Nat → List Compile → List Compile × Int
  | _, [] => ([], 0)
  | n, c :: rest =>
    if host.status n ≠ 0 then ([c], host.status n)
    else
      let (ran, code) := compileLoop host (n + 1) rest
      (c :: ran, code)

def axccLink (host : Host) (args objs : List Token) (out : Token) : Link :=
  let crt0 := under host.sdk "lib/crt0.o"
  let libc := under host.sdk "lib/libc.sl"
  if host.axldExists then
    { wrapper := true, before := [host.axld, text "-o", out], objects := objs,
      between := [crt0, libc],
      forwarded := (filtered args).filter (fun f => !startsWith "-I" f && !startsWith "-D" f) }
  else
    { wrapper := false, before := directLd host (axccLd host) ++ [text "-o", out, crt0],
      objects := objs, between := [libc], forwarded := [] }

/-- Lines 116-184. Without a value after `-o`, joining the link command raises
TypeError. -/
def axcc (host : Host) (args : List Token) : Build :=
  let (compiles, code) := compileLoop host 0 ((cFiles args).map (axccCompile host args))
  if code ≠ 0 then { compiles, link := none, exit := code }
  else
    let objs := oFiles args ++ (cFiles args).map (objectPath host)
    match axccOut args with
    | none => { compiles, link := none, exit := 1 }
    | some out =>
      { compiles, link := some (axccLink host args objs out), exit := host.status compiles.length }

/-! ## axtcc -/

def axtccMode (argv : List Token) : Mode :=
  if argv.head?.all (· ∈ helpTokens) then .help
  else if argv.head? = some (text "-v") ∨ argv.head? = some (text "--version") then .version
  else if text "-run" ∈ argv then .hostRun
  else if text "-c" ∈ argv then .compileOnly
  else .link

/-- `out`, after `if not out` has put in the default. -/
def axtccOut (argv : List Token) : Token :=
  match (if text "-o" ∈ argv then tokenAfterO argv else none) with
  | none => text "a.out"
  | some [] => text "a.out"
  | some out => out

def axtccOption (a : Token) : Bool := startsWith "-D" a || startsWith "-I" a || startsWith "-U" a

def tccCompile (host : Host) (tcc : Token) (argv : List Token) (src : Token) : Compile :=
  let obj := objectPath host src
  let cmd := [tcc, text "-c", text "-I" ++ under host.sdk "include",
    text "-I" ++ under host.sdk "tcc-host/include", text "-D__axiome__", text "-D__x86_64__", src,
    text "-o", obj]
  { source := src, object := obj, base := cmd, argv := propagate axtccOption cmd argv }

def gccBase (host : Host) : List Token :=
  [text "-ffreestanding", text "-nostdlib", text "-nostartfiles", text "-fno-builtin",
    text "-fno-stack-protector", text "-fpie", text "-fPIC", text "-mno-red-zone",
    text "-mcmodel=small", text "-O2", text "-g", text "-pipe", text "-Wall",
    text "-I" ++ under host.sdk "include"]

def gccCompile (host : Host) (argv : List Token) (src : Token) : Compile :=
  let obj := objectPath host src
  let cmd := host.gcc :: gccBase host ++ [text "-c", src, text "-o", obj]
  { source := src, object := obj, base := cmd, argv := propagate axtccOption cmd argv }

/-- The compiles run for one source, and the status of the last: tcc, and gcc
when there is no tcc or it fails. -/
def compileOne (host : Host) (argv : List Token) (n : Nat) (src : Token) : List Compile × Int :=
  match host.tcc with
  | some tcc =>
    if host.status n ≠ 0 then
      ([tccCompile host tcc argv src, gccCompile host argv src], host.status (n + 1))
    else ([tccCompile host tcc argv src], host.status n)
  | none => ([gccCompile host argv src], host.status n)

def compileEach (host : Host) (argv : List Token) : Nat → List Token → List Compile × Int
  | _, [] => ([], 0)
  | n, src :: rest =>
    let (tried, code) := compileOne host argv n src
    if code ≠ 0 then (tried, code)
    else
      let (ran, code) := compileEach host argv (n + tried.length) rest
      (tried ++ ran, code)

/-- What the forwarding loop of lines 201-208 appends. -/
def axtccForwards (out a : Token) : Bool :=
  if a = text "-o" ∨ a = out ∨ endsWith ".c" a ∨ endsWith ".o" a then false
  else if startsWith "-I" a || startsWith "-D" a then false
  else if a = text "-c" then false
  else true

def axtccLink (host : Host) (argv objs : List Token) (out : Token) : Link :=
  let crt0 := under host.sdk "lib/crt0.o"
  let libc := under host.sdk "lib/libc.sl"
  let nostdlib : Bool := text "-nostdlib" ∈ argv
  if host.axldExists && host.axldExecutable then
    { wrapper := true, before := [host.axld, text "-o", out], objects := objs,
      between := if nostdlib then [] else [crt0, libc],
      forwarded := argv.filter (axtccForwards out) }
  else
    { wrapper := false,
      before := directLd host (axtccLd host) ++ [text "-o", out] ++
        (if nostdlib then [] else [crt0]),
      objects := objs, between := if nostdlib then [] else [libc], forwarded := [] }

/-- Lines 166-229. -/
def axtcc (host : Host) (argv : List Token) : Build :=
  let (compiles, code) := compileEach host argv 0 (cFiles argv)
  if code ≠ 0 then { compiles, link := none, exit := code }
  else
    let objs := oFiles argv ++ (cFiles argv).map (objectPath host)
    { compiles, link := some (axtccLink host argv objs (axtccOut argv)),
      exit := host.status compiles.length }

/-! ## Commands -/

/-- Insertion keeps the order of the tokens and leaves the last three in place. -/
theorem propagate_eq (chosen : Token → Bool) (before : List Token) (a b c : Token)
    (tokens : List Token) :
    propagate chosen (before ++ [a, b, c]) tokens = before ++ tokens.filter chosen ++ [a, b, c] := by
  induction tokens generalizing before with
  | nil => simp [propagate]
  | cons t rest ih =>
    rw [propagate, List.foldl_cons, List.filter_cons]
    split
    · next yes =>
      have once : insertThirdLast (before ++ [a, b, c]) t = before ++ [t] ++ [a, b, c] := by
        have third : (before ++ [a, b, c]).length - 3 = before.length := by simp
        rw [insertThirdLast, third, List.take_left, List.drop_left]
        simp
      rw [once]
      have later := ih (before ++ [t])
      rw [propagate] at later
      rw [later]
      simp
    · exact ih before

theorem mem_cFiles {args : List Token} {a : Token} (member : a ∈ args) :
    a ∈ cFiles args ↔ endsWith ".c" a = true := by
  rw [cFiles, List.mem_filter]
  exact ⟨fun ⟨_, ends⟩ => ends, fun ends => ⟨member, ends⟩⟩

theorem mem_oFiles {args : List Token} {a : Token} (member : a ∈ args) :
    a ∈ oFiles args ↔ endsWith ".o" a = true := by
  rw [oFiles, List.mem_filter]
  exact ⟨fun ⟨_, ends⟩ => ends, fun ends => ⟨member, ends⟩⟩

end AxiomeToolchain.Source.Driver
