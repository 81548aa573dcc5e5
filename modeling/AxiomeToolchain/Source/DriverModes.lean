import AxiomeToolchain.Source.DriverRuns

/-!
# The other modes of the drivers

bin/axcc:75-116 and bin/axtcc:97-168: help, version, `-run` and compile-only,
beside the link mode. A whole run is the commands in the order they are started
and the exit status.
-/

set_option autoImplicit false

namespace AxiomeToolchain.Source.Driver
open AxiomeToolchain.Source.DriverRuns (tccFlags)

structure Ran where
  commands : List (List Token)
  exit : Int

def Build.commands (build : Build) : List (List Token) :=
  build.compiles.map Compile.argv ++ build.link.toList.map Link.argv

def Build.ran (build : Build) : Ran := ⟨build.commands, build.exit⟩

/-- `os.path.splitext(name)[0]` of a name without a slash: leading dots start no
extension. -/
def splitextRoot (name : Token) : Token :=
  let tail := name.reverse.takeWhile (· ≠ '.')
  let root := name.take (name.length - (tail.length + 1))
  if '.' ∉ name ∨ root.all (· = '.') then name else root

/-- `os.path.splitext(os.path.basename(a))[0] + ".o"` -/
def stemObject (src : Token) : Token := splitextRoot (basename src) ++ text ".o"

/-! ## axcc -/

/-- The object of a source in compile-only mode: the value of `-o` for a single
source, else the stem of its name. -/
def axtccObject (argv : List Token) (src : Token) : Token :=
  let out := if text "-o" ∈ argv then tokenAfterO argv else none
  match (if (cFiles argv).length = 1 then out else none) with
  | none => stemObject src
  | some [] => stemObject src
  | some obj => obj

def tccCompileTo (host : Host) (tcc : Token) (argv : List Token) (src obj : Token) : Compile :=
  let cmd := [tcc, text "-c", text "-I" ++ under host.sdk "include",
    text "-I" ++ under host.sdk "tcc-host/include", text "-D__axiome__", text "-D__x86_64__", src,
    text "-o", obj]
  { source := src, object := obj, base := cmd, argv := propagate axtccOption cmd argv }

def gccCompileTo (host : Host) (argv : List Token) (src obj : Token) : Compile :=
  let cmd := host.gcc :: gccBase host ++ [text "-c", src, text "-o", obj]
  { source := src, object := obj, base := cmd, argv := propagate axtccOption cmd argv }

def compileOneTo (host : Host) (argv : List Token) (objOf : Token → Token) (n : Nat) (src : Token) :
    List Compile × Int :=
  match host.tcc with
  | some tcc =>
    if host.status n ≠ 0 then
      ([tccCompileTo host tcc argv src (objOf src), gccCompileTo host argv src (objOf src)],
        host.status (n + 1))
    else ([tccCompileTo host tcc argv src (objOf src)], host.status n)
  | none => ([gccCompileTo host argv src (objOf src)], host.status n)

/-- Lines 149-168, and with the temporary objects lines 174-187. -/
def compileEachTo (host : Host) (argv : List Token) (objOf : Token → Token) :
    Nat → List Token → List Compile × Int
  | _, [] => ([], 0)
  | n, src :: rest =>
    let (tried, code) := compileOneTo host argv objOf n src
    if code ≠ 0 then (tried, code)
    else
      let (ran, code) := compileEachTo host argv objOf (n + tried.length) rest
      (tried ++ ran, code)

def axtccCompileOnly (host : Host) (argv : List Token) : Build :=
  let (compiles, code) := compileEachTo host argv (axtccObject argv) 0 (cFiles argv)
  { compiles, link := none, exit := code }

/-- Lines 117-128: `tcc` with the arguments as they are, and the SDK's headers. -/
def axtccHostRun (host : Host) (argv : List Token) : Ran :=
  match host.tcc with
  | none => ⟨[], 1⟩
  | some tcc =>
    let sdk := text "-I" ++ under host.sdk "include"
    ⟨[if sdk ∈ tcc :: argv then tcc :: argv else tcc :: sdk :: argv], host.status 0⟩

def axtccMain (host : Host) (argv : List Token) : Ran :=
  match axtccMode argv with
  | .help => ⟨host.tcc.toList.map (fun tcc => [tcc, text "-v"]), 0⟩
  | .version => ⟨[(host.tcc.map (fun tcc => [tcc, text "-v"])).getD [host.gcc, text "--version"]], 0⟩
  | .hostRun => axtccHostRun host argv
  | .compileOnly => (axtccCompileOnly host argv).ran
  | .link => (axtcc host argv).ran

variable {host : Host} {argv : List Token} {objOf : Token → Token} {n : Nat} {src : Token}
  {srcs : List Token}

/-- The link mode compiles with the same two commands. -/
theorem compileEach_eq (host : Host) (argv : List Token) (n : Nat) (srcs : List Token) :
    compileEach host argv n srcs = compileEachTo host argv (objectPath host) n srcs := by
  induction srcs generalizing n with
  | nil => rfl
  | cons src rest ih =>
    have one : compileOne host argv n src = compileOneTo host argv (objectPath host) n src := rfl
    rw [compileEach, compileEachTo, one]
    simp only [ih]

/-- The compile commands: own flags, the options passed on, source and object. -/
theorem tccCompileTo_argv (host : Host) (tcc : Token) (argv : List Token) (src obj : Token) :
    (tccCompileTo host tcc argv src obj).argv =
      tcc :: tccFlags host ++ argv.filter axtccOption ++ [src, text "-o", obj] :=
  propagate_eq axtccOption (tcc :: tccFlags host) src (text "-o") obj argv

theorem gccCompileTo_argv (host : Host) (argv : List Token) (src obj : Token) :
    (gccCompileTo host argv src obj).argv =
      host.gcc :: (gccBase host ++ [text "-c"]) ++ argv.filter axtccOption ++
        [src, text "-o", obj] := by
  have base : (gccCompileTo host argv src obj).base =
      (host.gcc :: (gccBase host ++ [text "-c"])) ++ [src, text "-o", obj] := by
    simp [gccCompileTo]
  have propagated : (gccCompileTo host argv src obj).argv =
      propagate axtccOption (gccCompileTo host argv src obj).base argv := rfl
  rw [propagated, base, propagate_eq]

/-- The object of a source that is not only dots and its extension. -/
example : stemObject (text "dir/hello.world.c") = text "hello.world.o" := by decide

end AxiomeToolchain.Source.Driver
