import Mathlib

/-!
# Runs of a guarded step function

A system has initial states, a guard that says which calls the environment may
make, and a step function; `none` is a step that does not return. An invariant
that holds initially and that every guarded step keeps holds in every state a
run reaches. A mark that some calls set and others clear is told by the calls.
-/

set_option autoImplicit false

namespace AxiomeToolchain.Library.Runs

structure System (σ ι : Type) where
  initial : σ → Prop
  allowed : σ → ι → Prop
  step : σ → ι → Option σ

variable {σ ι : Type} {sys : System σ ι} {s s' : σ} {call : ι} {calls : List ι}

inductive Reachable (sys : System σ ι) : σ → Prop
  | initial {s : σ} (start : sys.initial s) : Reachable sys s
  | step {s s' : σ} {call : ι} (before : Reachable sys s) (ok : sys.allowed s call)
      (ret : sys.step s call = some s') : Reachable sys s'

theorem Reachable.invariant {P : σ → Prop} (start : ∀ s, sys.initial s → P s)
    (keep : ∀ s call s', P s → sys.allowed s call → sys.step s call = some s' → P s')
    (reach : Reachable sys s) : P s := by
  induction reach with
  | initial first => exact start _ first
  | step _ ok ret ih => exact keep _ _ _ ih ok ret

theorem Reachable.next (before : Reachable sys s) (call : ι) (ok : sys.allowed s call)
    (ret : sys.step s call = some s') : Reachable sys s' := .step before ok ret

/-- One step of a run. -/
structure Step (σ ι : Type) where
  before : σ
  call : ι
  after : σ

/-- A run with its steps in order. -/
inductive Run (sys : System σ ι) : σ → List (Step σ ι) → σ → Prop
  | nil (s : σ) : Run sys s [] s
  | snoc {s t u : σ} {call : ι} {steps : List (Step σ ι)} (run : Run sys s steps t)
      (ok : sys.allowed t call) (ret : sys.step t call = some u) :
      Run sys s (steps ++ [⟨t, call, u⟩]) u

theorem Run.single (ok : sys.allowed s call) (ret : sys.step s call = some s') :
    Run sys s [⟨s, call, s'⟩] s' := .snoc (.nil s) ok ret

theorem Run.reachable {steps : List (Step σ ι)} (start : sys.initial s) (run : Run sys s steps s') :
    Reachable sys s' := by
  induction run with
  | nil => exact .initial start
  | snoc _ ok ret ih => exact .step ih ok ret

/-- Every step of a run is an allowed call in a reachable state. -/
theorem Run.steps_valid {steps : List (Step σ ι)} (start : sys.initial s) (run : Run sys s steps s') :
    ∀ step ∈ steps, Reachable sys step.before ∧ sys.allowed step.before step.call ∧
      sys.step step.before step.call = some step.after := by
  induction run with
  | nil => simp
  | snoc before ok ret ih =>
    intro step member
    rcases List.mem_append.mp member with earlier | last
    · exact ih step earlier
    · cases List.mem_singleton.mp last
      exact ⟨before.reachable start, ok, ret⟩

/-! ## Marks that calls set and clear -/

variable {sets clears : ι → Prop}

/-- A call has set the mark and none since has cleared it. -/
def Since (sets clears : ι → Prop) (calls : List ι) : Prop :=
  ∃ before call after, calls = before ++ call :: after ∧ sets call ∧ ∀ later ∈ after, ¬ clears later

theorem not_since_nil : ¬ Since sets clears [] := by
  rintro ⟨before, call, after, same, -⟩
  simp at same

theorem since_snoc :
    Since sets clears (calls ++ [call]) ↔ sets call ∨ Since sets clears calls ∧ ¬ clears call := by
  constructor
  · rintro ⟨before, first, after, same, set, kept⟩
    induction after using List.reverseRecOn with
    | nil =>
      obtain ⟨-, last⟩ := List.append_inj' same rfl
      obtain rfl := List.singleton_injective last
      exact .inl set
    | append_singleton after last =>
      have cut : calls ++ [call] = (before ++ first :: after) ++ [last] := by simpa using same
      obtain ⟨earlier, ends⟩ := List.append_inj' cut rfl
      obtain rfl := List.singleton_injective ends
      refine .inr ⟨⟨before, first, after, earlier, set, fun later member => ?_⟩, ?_⟩
      · exact kept later (List.mem_append_left _ member)
      · exact kept call (by simp)
  · rintro (set | ⟨⟨before, first, after, rfl, set, kept⟩, last⟩)
    · exact ⟨calls, call, [], rfl, set, by simp⟩
    · refine ⟨before, first, after ++ [call], by simp, set, fun later member => ?_⟩
      rcases List.mem_append.mp member with inside | same
      · exact kept later inside
      · rw [List.mem_singleton.mp same]
        exact last

end AxiomeToolchain.Library.Runs
