import AxiomeToolchain.Library.Amd64

/-!
# Program entry

`_start` of sdk/src/crt0.c:6-26, instruction by instruction, and the stack it
finds: the number of arguments, their pointers, NULL, the pointers to the
environment strings, NULL. `SYS_EXIT` is 2 in sdk/include/syscall_numbers.h.
-/

set_option autoImplicit false

namespace AxiomeToolchain.Source.ProgramStart
open AxiomeToolchain.Library.Amd64

inductive Target where
  | setEnviron | main
  deriving DecidableEq, Repr

def sysExit : Word := 2

/-- Behind `call main`. -/
def exitCall : List (Instruction Target) :=
  [.movLow .rax .rdi, .movImmediate sysExit .rax, .syscall]

/-- Behind `call __axiome_set_environ`. -/
def callMain : List (Instruction Target) :=
  .mov .r8 .rdi :: .mov .r9 .rsi :: .call .main :: exitCall

def start : List (Instruction Target) :=
  .load .rsp .rdi :: .lea 8 .rsp none .rsi :: .lea 8 .rsi (some (.rdi, 8)) .rdx ::
    .mov .rdi .r8 :: .mov .rsi .r9 :: .mov .rdx .rdi :: .call .setEnviron :: callMain

/-- `environ = envp;` of sdk/src/stdlib.c:16-19, compiled to a store and a `ret`. -/
def setEnviron (environ : Word) (entry : Machine) : Option Machine :=
  some (entry.store environ (entry.regs .rdi)).pop

/-- The words that the kernel puts on the stack of a new program. -/
structure InitialStack where
  address : Word
  argv : List Word
  envp : List Word
  fits : address.toNat + 8 * (argv.length + envp.length + 3) ≤ 2 ^ 64

namespace InitialStack

def argc (s : InitialStack) : Word := BitVec.ofNat 64 s.argv.length

def words (s : InitialStack) : List Word := s.argc :: s.argv ++ 0 :: s.envp ++ [0]

def slot (s : InitialStack) (i : Nat) : Word := s.address + BitVec.ofNat 64 (8 * i)

/-- The address of `argv[0]`. -/
def argvAddress (s : InitialStack) : Word := s.slot 1

/-- The address of the first slot behind the NULL of `argv`. -/
def envpAddress (s : InitialStack) : Word := s.slot (s.argv.length + 2)

/-- The machine at the entry of the program. -/
structure Laid (s : InitialStack) (m : Machine) : Prop where
  stackPointer : m.regs .rsp = s.address
  held : ∀ i word, s.words[i]? = some word → m.load (s.slot i) = word

variable (s : InitialStack)

theorem words_envp : s.words.drop (s.argv.length + 2) = s.envp ++ [0] := by
  have front : s.words = (s.argc :: s.argv ++ [0]) ++ (s.envp ++ [0]) := by
    simp [words]
  rw [front, List.drop_left']
  simp

theorem slot_zero : s.slot 0 = s.address := by
  simp [slot]

theorem slot_add (i k : Nat) : s.slot (i + k) = s.slot i + BitVec.ofNat 64 (8 * k) := by
  rw [slot, slot, Nat.mul_add, BitVec.ofNat_add, BitVec.add_assoc]

theorem argvAddress_eq : s.argvAddress = 8 + s.address := by
  rw [argvAddress, ← Nat.zero_add 1, slot_add, slot_zero, BitVec.add_comm]
  rfl

theorem envpAddress_eq : s.envpAddress = 8 + s.argvAddress + s.argc * 8 := by
  have behind : s.argv.length + 2 = 1 + (s.argv.length + 1) := by omega
  have distance : BitVec.ofNat 64 (8 * (s.argv.length + 1)) = 8 + s.argc * 8 := by
    apply BitVec.eq_of_toNat_eq
    simp [argc]
    omega
  rw [envpAddress, behind, slot_add, distance, ← BitVec.add_assoc, BitVec.add_comm _ 8]
  rfl

end InitialStack

variable {s : InitialStack} {m : Machine}

/-- `__axiome_set_environ` as _start calls it. -/
def atHook (s : InitialStack) (m : Machine) (returnTo : Word) : Machine :=
  ((((((m.set .rdi s.argc).set .rsi s.argvAddress).set .rdx s.envpAddress).set .r8 s.argc).set
    .r9 s.argvAddress).set .rdi s.envpAddress).push returnTo

theorem run_start (env : Environment Target) (laid : s.Laid m) :
    run env start m =
      .call .setEnviron (atHook s m (env.place callMain)) ::
        (env.callee .setEnviron (atHook s m (env.place callMain))).elim []
          (fun back => run env callMain back) := by
  have count : m.load s.address = s.argc := by
    rw [← s.slot_zero]
    exact laid.held 0 _ rfl
  have argv : 8 + s.address + 0 = s.argvAddress := (BitVec.add_zero _).trans s.argvAddress_eq.symm
  simp only [start, run, effectiveAddress, Machine.regs_set, Option.elim_none, Option.elim_some,
    reduceCtorEq, if_false, if_true, laid.stackPointer, count]
  rw [argv, ← s.envpAddress_eq]
  rfl

/-- `main` as _start calls it when the hook has returned. -/
def atMain (back : Machine) (returnTo : Word) : Machine :=
  ((back.set .rdi (back.regs .r8)).set .rsi (back.regs .r9)).push returnTo

theorem run_callMain (env : Environment Target) (back : Machine) :
    run env callMain back =
      .call .main (atMain back (env.place exitCall)) ::
        (env.callee .main (atMain back (env.place exitCall))).elim []
          (fun back => run env exitCall back) := by
  simp only [callMain, run, Machine.regs_set, reduceCtorEq, if_false]
  rfl

end AxiomeToolchain.Source.ProgramStart
