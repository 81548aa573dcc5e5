import AxiomeToolchain.Source.FormatStores
import AxiomeToolchain.Source.StdioOutput

/-!
# Both scanners on every format

A format asks for a list of arguments by type, whether it is well formed or
breaks off in the middle of a directive. With as many arguments both engines
return: no read went past the NUL, no budget ran out, and what they fetched is
this list.
-/

set_option autoImplicit false

namespace AxiomeToolchain.Guarantees.ScannerAgreement
open AxiomeToolchain.Library.CInt
open AxiomeToolchain.Library.Sink
open AxiomeToolchain.Source.Stdio
open AxiomeToolchain.Source.Format

def fetchOf : Piece → Option Fetch
  | .literal _ => none
  | .directive d => d.fetch

/-- The arguments a format asks for, in order. -/
def fetches (fmt : CString) : List Fetch := (pieces fmt).filterMap fetchOf

/-- The argument list after `types` were fetched from it. -/
def advanced (ap : VaList) (types : List Fetch) : VaList :=
  ⟨ap.args.drop types.length, ap.fetched ++ types⟩

variable {ap : VaList} {ps : List Piece}

theorem vaArg_after (type : Fetch) {types : List Fetch}
    (enough : (type :: types).length ≤ ap.args.length) :
    ∃ arg next, vaArg type ap = some (arg, next) ∧ types.length ≤ next.args.length ∧
      advanced next types = advanced ap (type :: types) := by
  obtain ⟨args, fetched⟩ := ap
  cases args with
  | nil => exact absurd enough (Nat.not_succ_le_zero _)
  | cons arg rest =>
    refine ⟨arg, ⟨rest, fetched ++ [type]⟩, rfl, Nat.le_of_succ_le_succ enough, ?_⟩
    simp [advanced]

/-- With enough arguments every piece gets its own. -/
theorem items_after (ps : List Piece) (ap : VaList)
    (enough : (ps.filterMap fetchOf).length ≤ ap.args.length) :
    ∃ its, items ps ap = some (its, advanced ap (ps.filterMap fetchOf)) := by
  induction ps generalizing ap with
  | nil =>
    refine ⟨[], ?_⟩
    simp [items, advanced]
  | cons piece ps ih =>
    cases piece with
    | literal c =>
      obtain ⟨its, found⟩ := ih ap enough
      exact ⟨.literal c :: its, by rw [items, found]; rfl⟩
    | directive d =>
      cases type : d.fetch with
      | none =>
        have same : (Piece.directive d :: ps).filterMap fetchOf = ps.filterMap fetchOf :=
          List.filterMap_cons_none type
        rw [same] at enough ⊢
        obtain ⟨its, found⟩ := ih ap enough
        exact ⟨.unknown d :: its, by simp only [items, type, found, Option.map_some]⟩
      | some t =>
        have more : (Piece.directive d :: ps).filterMap fetchOf = t :: ps.filterMap fetchOf :=
          List.filterMap_cons_some type
        rw [more] at enough ⊢
        obtain ⟨arg, next, fetched, rest, after⟩ := vaArg_after t enough
        obtain ⟨its, found⟩ := ih next rest
        rw [after] at found
        exact ⟨.convert d arg :: its,
          by simp only [items, type, fetched, found, Option.bind_some, Option.map_some]⟩

/-- The scanners agree on every format: for any destination of vsnprintf_internal
and any kernel and fill of outbuf under vprintf, both return and fetch the
arguments the format asks for. -/
theorem scanners_agree (fmt : CString) (ap : VaList)
    (enough : (fetches fmt).length ≤ ap.args.length) :
    (∀ target : Target, ∃ stores n,
      vsnprintfInternal target fmt ap = some (stores, advanced ap (fetches fmt), n)) ∧
    ∀ (kernel : Kernel) (st : State), st.outlen ≤ outbufSize - 2 → ∃ st',
      vprintf kernel st fmt ap = some (st', advanced ap (fetches fmt), 0) := by
  obtain ⟨its, found⟩ := items_after (pieces fmt) ap enough
  constructor
  · intro target
    obtain ⟨out, fed⟩ := putAll_store_total target ⟨0, []⟩ (its.flatMap Item.bufferText)
    have run := vsnprintf_items target fmt ⟨0, []⟩ ap
    simp only [found, Option.bind_some, fed, Option.map_some] at run
    exact ⟨_, _, by rw [vsnprintfInternal, run]; rfl⟩
  · intro kernel st room
    obtain ⟨st', fed, -⟩ := putAll_emitted kernel room (its.flatMap Item.stdoutText)
    have run := vprintf_items kernel fmt st ap
    simp only [found, Option.bind_some, fed, Option.map_some] at run
    exact ⟨flush kernel st', by rw [vprintf, run]; rfl⟩

def brokenFormat : CString := ⟨ascii "%c%-08.3k%s%l", by decide, by decide⟩

/-- An unknown conversion asks for nothing, nor does a directive that breaks off. -/
theorem brokenFormat_fetches : fetches brokenFormat = [.int, .string] := by decide

def twoArgs : VaList := ⟨[⟨65, CString.empty⟩, ⟨0, CString.empty⟩], []⟩

theorem scanners_agree_broken :
    (∃ stores n, vsnprintfInternal ⟨0, 0, false⟩ brokenFormat twoArgs =
      some (stores, ⟨[], [.int, .string]⟩, n)) ∧
    ∀ (kernel : Kernel) (st : State), st.outlen ≤ outbufSize - 2 → ∃ st',
      vprintf kernel st brokenFormat twoArgs = some (st', ⟨[], [.int, .string]⟩, 0) := by
  have enough : (fetches brokenFormat).length ≤ twoArgs.args.length := by
    rw [brokenFormat_fetches]
    decide
  have both := scanners_agree brokenFormat twoArgs enough
  rw [brokenFormat_fetches] at both
  exact ⟨both.1 ⟨0, 0, false⟩, both.2⟩

end AxiomeToolchain.Guarantees.ScannerAgreement
