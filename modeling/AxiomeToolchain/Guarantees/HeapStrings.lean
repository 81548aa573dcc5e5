import AxiomeToolchain.Source.HeapStrings

/-!
# String functions on the heap

Runs in which the client mixes heap calls, its own writes and the functions of
string.c that store, on any places of its allocations. The memory stays what the
list functions of the view say, header bytes included in what never changes.
-/

set_option autoImplicit false

namespace AxiomeToolchain.Guarantees.HeapStrings
open AxiomeToolchain.Library.ByteMemory
open AxiomeToolchain.Library.Runs
open AxiomeToolchain.Library.TerminatedString
open AxiomeToolchain.Source.Heap
open AxiomeToolchain.Source.HeapStrings
open AxiomeToolchain.Source.StringBuild (strlen strlen_eq)

end AxiomeToolchain.Guarantees.HeapStrings
