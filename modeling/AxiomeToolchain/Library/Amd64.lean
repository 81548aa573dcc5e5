import AxiomeToolchain.Library.ByteMemory

/-!
# Straight-line AMD64 code with calls

The 64-bit moves and address computations, calls and system calls. What a callee
or the kernel does is a parameter: it gives back a machine or never returns. The
convention for callees names the registers they may overwrite; it promises
nothing about the memory.
-/

set_option autoImplicit false

namespace AxiomeToolchain.Library.Amd64
open AxiomeToolchain.Library.ByteMemory

abbrev Word := BitVec 64

inductive Register where
  | rax | rbx | rcx | rdx | rsi | rdi | rbp | rsp
  | r8 | r9 | r10 | r11 | r12 | r13 | r14 | r15
  deriving DecidableEq, Repr

structure Machine where
  regs : Register → Word
  memory : Memory

variable {τ : Type}

namespace Machine

def set (m : Machine) (r : Register) (w : Word) : Machine :=
  { m with regs := Function.update m.regs r w }

def load (m : Machine) (address : Word) : Word := BitVec.ofNat 64 (readLE m.memory address.toNat 8)

def store (m : Machine) (address w : Word) : Machine :=
  { m with memory := writeLE m.memory address.toNat w.toNat 8 }

/-- `call` leaves the return address on top of the stack. -/
def push (m : Machine) (w : Word) : Machine :=
  (m.store (m.regs .rsp - 8) w).set .rsp (m.regs .rsp - 8)

/-- `ret` takes it away. -/
def pop (m : Machine) : Machine := m.set .rsp (m.regs .rsp + 8)

@[simp] theorem regs_set (m : Machine) (r q : Register) (w : Word) :
    (m.set r w).regs q = if q = r then w else m.regs q := by
  simp only [set, Function.update_apply]

@[simp] theorem regs_store (m : Machine) (address w : Word) : (m.store address w).regs = m.regs :=
  rfl

@[simp] theorem regs_push (m : Machine) (w : Word) (q : Register) :
    (m.push w).regs q = if q = .rsp then m.regs .rsp - 8 else m.regs q := by
  rw [push, regs_set, regs_store]

@[simp] theorem regs_pop (m : Machine) (q : Register) :
    m.pop.regs q = if q = .rsp then m.regs .rsp + 8 else m.regs q := by
  rw [pop, regs_set]

end Machine

/-- Operands in the order of the assembler: the source first. -/
inductive Instruction (τ : Type) where
  | load (base dst : Register)
  | lea (displacement : Word) (base : Register) (index : Option (Register × Word)) (dst : Register)
  | mov (src dst : Register)
  | movLow (src dst : Register)
  | movImmediate (value : Word) (dst : Register)
  | call (target : τ)
  | syscall

/-- `displacement(base, index, scale)` -/
def effectiveAddress (m : Machine) (displacement : Word) (base : Register)
    (index : Option (Register × Word)) : Word :=
  displacement + m.regs base + (index.elim 0 (fun (r, scale) => m.regs r * scale))

/-- A call or a system call, with the machine as the other side finds it. -/
inductive Event (τ : Type) where
  | call (target : τ) (entry : Machine)
  | syscall (entry : Machine)

/-- The callees, the kernel, and where the code behind an instruction stands. -/
structure Environment (τ : Type) where
  callee : τ → Machine → Option Machine
  kernel : Machine → Option Machine
  place : List (Instruction τ) → Word

/-- The calls of a run, in order. -/
def run (env : Environment τ) : List (Instruction τ) → Machine → List (Event τ)
  | [], _ => []
  | .load base dst :: rest, m => run env rest (m.set dst (m.load (m.regs base)))
  | .lea displacement base index dst :: rest, m =>
    run env rest (m.set dst (effectiveAddress m displacement base index))
  | .mov src dst :: rest, m => run env rest (m.set dst (m.regs src))
  | .movLow src dst :: rest, m =>
    run env rest (m.set dst (((m.regs src).setWidth 32).setWidth 64))
  | .movImmediate value dst :: rest, m => run env rest (m.set dst value)
  | .call target :: rest, m =>
    let entry := m.push (env.place rest)
    .call target entry :: (env.callee target entry).elim [] (fun back => run env rest back)
  | .syscall :: rest, m =>
    .syscall m :: (env.kernel m).elim [] (fun back => run env rest back)

/-! ## The calling convention -/

/-- The registers a callee of the System V convention may overwrite. -/
def overwritten : List Register := [.rax, .rcx, .rdx, .rsi, .rdi, .r8, .r9, .r10, .r11]

/-- Back from a call, the other registers are as they were at the entry, except
that the return address is gone from the stack. -/
def Conforms (callee : Machine → Option Machine) : Prop :=
  ∀ entry back, callee entry = some back → back.regs .rsp = entry.regs .rsp + 8 ∧
    ∀ r, r ∉ overwritten → r ≠ .rsp → back.regs r = entry.regs r

/-- A callee may leave anything in a register that it may overwrite. -/
theorem conforms_set {callee : Machine → Option Machine} (conforms : Conforms callee)
    {q : Register} (member : q ∈ overwritten) (w : Word) :
    Conforms (fun entry => (callee entry).map (fun back => back.set q w)) := by
  intro entry _ returned
  obtain ⟨back, run, rfl⟩ := Option.map_eq_some_iff.mp returned
  obtain ⟨balanced, kept⟩ := conforms entry back run
  have different : ∀ r, r ∉ overwritten → (back.set q w).regs r = back.regs r := by
    intro r outside
    have other : r ≠ q := by
      rintro rfl
      exact outside member
    rw [Machine.regs_set, if_neg other]
  exact ⟨(different .rsp (by decide)).trans balanced, fun r outside other =>
    (different r outside).trans (kept r outside other)⟩

end AxiomeToolchain.Library.Amd64
