import AxiomeToolchain.Source.Linker
import AxiomeToolchain.Guarantees.DriverRouting

/-!
# Linking through axld and linking directly

Both drivers know two ways to the linker: axld, which adds what is missing, and
where there is no axld a command of their own with everything spelled out. With
nothing forwarded the two ways come to the same if they find the same linker,
and if axld takes no file for a flag and no output for the library or for a
question about itself.
-/

set_option autoImplicit false

namespace AxiomeToolchain.Guarantees.WrappedLink
open AxiomeToolchain.Source.Driver
open AxiomeToolchain.Source.DriverRuns
open AxiomeToolchain.Source.Linker
open AxiomeToolchain.Guarantees.DriverRouting

def crt0 (host : Host) : Token := under host.sdk "lib/crt0.o"

def libc (host : Host) : Token := under host.sdk "lib/libc.sl"

variable {host : Host} {run : List Token → Option Int} {ld : Token}
  {args objs files : List Token} {out a : Token}

/-! ## What axld adds -/

end AxiomeToolchain.Guarantees.WrappedLink
