import AxiomeToolchain.Guarantees.ProgramLife
import AxiomeToolchain.Source.HeapContainment

/-!
# getenv while the program works on its heap

A program that main has entered calls the heap functions and the string functions
on places inside its allocations, in any order. Nothing of that reaches the
environment, so that getenv answers with the same pointer all along, also for
names the program has built in its allocations.
-/

set_option autoImplicit false

namespace AxiomeToolchain.Guarantees.EnvironmentStability
open AxiomeToolchain.Library.ByteMemory
open AxiomeToolchain.Library.TerminatedString
open AxiomeToolchain.Library.Amd64
open AxiomeToolchain.Library.Runs
open AxiomeToolchain.Source.Heap
open AxiomeToolchain.Source.HeapStrings
open AxiomeToolchain.Source.Stdio (CString)
open AxiomeToolchain.Source.Environment (equalsSign)
open AxiomeToolchain.Source.EnvironmentMemory (getenv getenv_refines objects address)
open AxiomeToolchain.Source.ProgramStart
open AxiomeToolchain.Guarantees.ProgramEntry (exampleEnvironment)
open AxiomeToolchain.Guarantees.ProgramLife

variable {s : InitialStack} {texts : List CString} {environ : Word} {m : Machine}

/-- The pointer getenv returns for a key, whatever memory the key is read from. -/
def answer (s : InitialStack) (texts : List CString) (key : CString) : Nat :=
  ((Source.Environment.getenv (some (objects (slots s texts))) (some key.terminated)).map
    (address (slots s texts))).getD null

end AxiomeToolchain.Guarantees.EnvironmentStability
