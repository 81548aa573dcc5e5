import AxiomeToolchain.Source.Syscall

/-!
# What the kernel receives and what the caller gets back

No two system calls look alike: number and arguments come back from the registers,
32-bit arguments from the low halves; of sigaction's object its copy, with the
restorer of the library. On the way back errno is written by failures only, so
after any sequence of calls it holds the code of the last one that failed.
-/

set_option autoImplicit false

namespace AxiomeToolchain.Guarantees.SystemCalls
open AxiomeToolchain.Library.CInt
open AxiomeToolchain.Source.Syscall

/-- The `int` or `unsigned int` in the low half of a register. -/
def low (r : Long) : BitVec 32 := r.setWidth 32

@[simp] theorem low_ofInt (v : CInt) : low (ofInt v) = v := by
  ext i inside
  rw [low, ofInt, BitVec.getElem_setWidth, BitVec.getLsbD_signExtend]
  simp [inside, Nat.lt_trans inside (show 32 < 64 by decide)]

@[simp] theorem low_ofUInt (v : UInt) : low (ofUInt v) = v := by
  simp [low, ofUInt]

def outcome (call : SystemCall × Int) : Int := call.1.outcome call.2

end AxiomeToolchain.Guarantees.SystemCalls
