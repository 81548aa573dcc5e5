import AxiomeToolchain.Source.ProgramStart

/-!
# What main receives

`_start` keeps argc and argv over the call of `__axiome_set_environ` in r8 and
r9, and envp in rdx alone. A callee may overwrite all three, so `main` receives
its arguments exactly when this callee happens to leave them alone.
-/

set_option autoImplicit false

namespace AxiomeToolchain.Guarantees.ProgramEntry
open AxiomeToolchain.Library.ByteMemory
open AxiomeToolchain.Library.Amd64
open AxiomeToolchain.Source.ProgramStart

/-- The hook gets the environment, and then main the three arguments. -/
def EntersMain (s : InitialStack) (events : List (Event Target)) : Prop :=
  ∃ hook entry later, events = .call .setEnviron hook :: .call .main entry :: later ∧
    hook.regs .rdi = s.envpAddress ∧ entry.regs .rdi = s.argc ∧
    entry.regs .rsi = s.argvAddress ∧ entry.regs .rdx = s.envpAddress

/-- From `entry` the callee returns, with the three registers as they were. -/
def KeepsArguments (callee : Machine → Option Machine) (entry : Machine) : Prop :=
  ∃ back, callee entry = some back ∧ ∀ r ∈ [Register.rdx, .r8, .r9], back.regs r = entry.regs r

variable {s : InitialStack} {m : Machine}

theorem atHook_regs (s : InitialStack) (m : Machine) (returnTo : Word) :
    (atHook s m returnTo).regs .rdi = s.envpAddress ∧
      (atHook s m returnTo).regs .rdx = s.envpAddress ∧
      (atHook s m returnTo).regs .r8 = s.argc ∧
      (atHook s m returnTo).regs .r9 = s.argvAddress := by
  simp [atHook]

theorem atMain_regs (back : Machine) (returnTo : Word) :
    (atMain back returnTo).regs .rdi = back.regs .r8 ∧
      (atMain back returnTo).regs .rsi = back.regs .r9 ∧
      (atMain back returnTo).regs .rdx = back.regs .rdx := by
  simp [atMain]

/-- For every initial stack and whatever `__axiome_set_environ` does: the run
calls it with envp and then main with argc, argv and envp if and only if it
returns with rdx, r8 and r9 as it received them. -/
theorem entry_iff (s : InitialStack) (m : Machine) (env : Environment Target) (laid : s.Laid m) :
    EntersMain s (run env start m) ↔
      KeepsArguments (env.callee .setEnviron) (atHook s m (env.place callMain)) := by
  obtain ⟨rdi, rdx, r8, r9⟩ := atHook_regs s m (env.place callMain)
  rw [run_start env laid]
  constructor
  · rintro ⟨hook, entry, later, events, -, argc, argv, envp⟩
    obtain ⟨-, rest⟩ := List.cons.inj events
    cases returned : env.callee .setEnviron (atHook s m (env.place callMain)) with
    | none =>
      rw [returned] at rest
      cases rest
    | some back =>
      rw [returned, Option.elim_some, run_callMain] at rest
      cases rest
      obtain ⟨mainRdi, mainRsi, mainRdx⟩ := atMain_regs back (env.place exitCall)
      refine ⟨back, returned, ?_⟩
      simp only [List.forall_mem_cons, List.not_mem_nil, false_imp_iff, implies_true, and_true]
      exact ⟨mainRdx.symm.trans (envp.trans rdx.symm), mainRdi.symm.trans (argc.trans r8.symm),
        mainRsi.symm.trans (argv.trans r9.symm)⟩
  · rintro ⟨back, returned, kept⟩
    simp only [List.forall_mem_cons, List.not_mem_nil, false_imp_iff, implies_true, and_true] at kept
    obtain ⟨mainRdi, mainRsi, mainRdx⟩ := atMain_regs back (env.place exitCall)
    rw [returned, Option.elim_some, run_callMain]
    refine ⟨_, _, _, rfl, rdi, ?_, ?_, ?_⟩
    · rw [mainRdi, kept.2.1, r8]
    · rw [mainRsi, kept.2.2, r9]
    · rw [mainRdx, kept.1, rdx]

/-! ## One argument and no environment -/

def exampleStack : InitialStack := ⟨4096, [8192], [], by decide⟩

def exampleMachine : Machine :=
  { regs := fun r => if r = .rsp then 4096 else 0
    memory := writeLE (writeLE (fun _ => 0) 4096 1 8) 4104 8192 8 }

/-- A main that does not return. -/
def exampleEnvironment (hook : Machine → Option Machine) : Environment Target where
  callee target := if target = .setEnviron then hook else fun _ => none
  kernel _ := none
  place _ := 65536

theorem example_laid : exampleStack.Laid exampleMachine := by
  refine ⟨rfl, fun i word found => ?_⟩
  have inside : i < 4 := (List.getElem?_eq_some_iff.mp found).1
  interval_cases i <;> (cases found; decide)

theorem setEnviron_conforms (environ : Word) : Conforms (setEnviron environ) := by
  intro entry _ returned
  cases returned
  constructor
  · rw [Machine.regs_pop, if_pos rfl, Machine.regs_store]
  · intro r _ other
    rw [Machine.regs_pop, if_neg other, Machine.regs_store]

/-- The hook of stdlib.c, with `environ` at 16384. -/
theorem entry_iff_set_environ :
    EntersMain exampleStack (run (exampleEnvironment (setEnviron 16384)) start exampleMachine) := by
  apply (entry_iff exampleStack exampleMachine (exampleEnvironment (setEnviron 16384))
    example_laid).mpr
  refine ⟨_, rfl, ?_⟩
  simp

/-- The same hook, if the compiler uses r8 for something else. -/
def zeroingHook (entry : Machine) : Option Machine :=
  (setEnviron 16384 entry).map (fun back => back.set .r8 0)

theorem zeroingHook_conforms : Conforms zeroingHook :=
  conforms_set (setEnviron_conforms 16384) (by decide) 0

/-- With it main is told that there are no arguments. -/
theorem arguments_lost : Conforms zeroingHook ∧
    ¬ ∀ (s : InitialStack) (m : Machine) (env : Environment Target), s.Laid m →
      Conforms (env.callee .setEnviron) → EntersMain s (run env start m) := by
  refine ⟨zeroingHook_conforms, fun all => ?_⟩
  obtain ⟨hook, entry, later, events, -, argc, -⟩ := all exampleStack exampleMachine
    (exampleEnvironment zeroingHook) example_laid zeroingHook_conforms
  rw [run_start _ example_laid] at events
  obtain ⟨-, rest⟩ := List.cons.inj events
  have returned : (exampleEnvironment zeroingHook).callee .setEnviron = zeroingHook := rfl
  rw [returned, zeroingHook, setEnviron, Option.map_some, Option.elim_some, run_callMain] at rest
  cases rest
  rw [(atMain_regs _ _).1, Machine.regs_set, if_pos rfl] at argc
  exact absurd argc (by decide)

end AxiomeToolchain.Guarantees.ProgramEntry
