import AxiomeToolchain.Library.Prefixes
import AxiomeToolchain.Source.FormatText

/-!
# Formats one behind the other

A format that does not end inside a directive can be cut off there: its pieces,
and what they fetch and feed, do not depend on what follows. Any other format
swallows the start of what follows.
-/

set_option autoImplicit false

namespace AxiomeToolchain.Source.Format
open AxiomeToolchain.Library.CInt
open AxiomeToolchain.Library.Sink
open AxiomeToolchain.Library.Prefixes
open AxiomeToolchain.Source.Stdio

/-- Whether every '%' is followed by a whole directive. -/
def completeWithin : Nat → List UInt8 → Bool
  | 0, _ => true
  | _ + 1, [] => true
  | budget + 1, c :: s =>
    if c ≠ percentChar then completeWithin budget s
    else if s = [] then false
    else if s.head? = some percentChar then completeWithin budget s.tail
    else match parseDirective s with
      | none => false
      | some (_, rest) => completeWithin budget rest

def Complete (fmt : CString) : Prop := completeWithin fmt.bytes.length fmt.bytes = true

instance (fmt : CString) : Decidable (Complete fmt) :=
  inferInstanceAs (Decidable (completeWithin fmt.bytes.length fmt.bytes = true))

/-- The format `f` with `g` behind it, as strcat would leave it. -/
def joined (f g : CString) (fits : f.bytes.length + g.bytes.length < wordModulus) : CString where
  bytes := f.bytes ++ g.bytes
  nul_free member := (List.mem_append.mp member).elim f.nul_free g.nul_free
  fits := by rw [List.length_append]; exact fits

variable {s t rest : List UInt8} {d : Directive} {budget more : Nat} {ps qs : List Piece}
  {ap ap' : VaList} {its : List Item}

/-- The stages of a directive that ends with a conversion all stop inside it. -/
structure Stopped (s rest : List UInt8) (d : Directive) : Prop where
  flags : s.dropWhile isFlag ≠ []
  width : (s.dropWhile isFlag).dropWhile isDigit ≠ []
  precision : skipPrecision ((s.dropWhile isFlag).dropWhile isDigit) ≠ []
  length : (skipPrecision ((s.dropWhile isFlag).dropWhile isDigit)).dropWhile isLength = d.spec :: rest

theorem skipPrecision_nil : skipPrecision [] = [] := rfl

theorem stopped_of_parse (found : parseDirective s = some (d, rest)) : Stopped s rest d := by
  simp only [parseDirective] at found
  split at found
  · cases found
  · next spec tail left =>
    cases found
    refine ⟨?_, ?_, ?_, left⟩
    all_goals
      intro empty
      simp [empty, skipPrecision_nil] at left

theorem skipPrecision_append (stopped : skipPrecision s ≠ []) (t : List UInt8) :
    skipPrecision (s ++ t) = skipPrecision s ++ t := by
  cases s with
  | nil => exact absurd rfl stopped
  | cons c s =>
    rw [List.cons_append, skipPrecision, skipPrecision]
    rw [skipPrecision] at stopped
    split
    · next dot =>
      rw [if_pos dot] at stopped
      exact dropWhile_stopped stopped t
    · rfl

theorem parseDirective_append (found : parseDirective s = some (d, rest)) (t : List UInt8) :
    parseDirective (s ++ t) = some (d, rest ++ t) := by
  have stopped := stopped_of_parse found
  have length_stopped :
      (skipPrecision ((s.dropWhile isFlag).dropWhile isDigit)).dropWhile isLength ≠ [] := by
    rw [stopped.length]
    exact List.cons_ne_nil _ _
  simp only [parseDirective, stopped.length, Option.some.injEq, Prod.mk.injEq] at found
  simp only [parseDirective, takeWhile_stopped stopped.flags, dropWhile_stopped stopped.flags,
    takeWhile_stopped stopped.width, dropWhile_stopped stopped.width,
    skipPrecision_append stopped.precision, takeWhile_stopped length_stopped,
    dropWhile_stopped length_stopped, stopped.length, List.cons_append, found.1]

/-- Budget beyond the bytes changes nothing. -/
theorem piecesWithin_more (short : s.length ≤ budget) (more : Nat) :
    piecesWithin (budget + more) s = piecesWithin budget s := by
  induction budget generalizing s with
  | zero =>
    cases List.eq_nil_of_length_eq_zero (Nat.le_zero.mp short)
    cases more <;> rfl
  | succ budget ih =>
    cases s with
    | nil => rw [Nat.succ_add]; rfl
    | cons c s =>
      simp only [List.length_cons] at short
      rw [Nat.succ_add, piecesWithin, piecesWithin, ih (by omega)]
      have tail : piecesWithin (budget + more) s.tail = piecesWithin budget s.tail :=
        ih (by rw [List.length_tail]; omega)
      rw [tail]
      cases found : parseDirective s with
      | none => rfl
      | some result =>
        obtain ⟨d, rest⟩ := result
        have shorter := (parseDirective_suffix found).length_le
        simp only [List.length_cons] at shorter
        simp only [ih (show rest.length ≤ budget by omega)]

theorem piecesWithin_append (short : s.length ≤ budget) (room : t.length ≤ more)
    (complete : completeWithin budget s = true) :
    piecesWithin (budget + more) (s ++ t) = piecesWithin budget s ++ piecesWithin more t := by
  induction budget generalizing s with
  | zero =>
    cases List.eq_nil_of_length_eq_zero (Nat.le_zero.mp short)
    rw [Nat.zero_add]
    rfl
  | succ budget ih =>
    cases s with
    | nil =>
      rw [List.nil_append, Nat.add_comm, piecesWithin_more room]
      rfl
    | cons c s =>
      simp only [List.length_cons] at short
      rw [completeWithin] at complete
      rw [List.cons_append, Nat.succ_add, piecesWithin, piecesWithin]
      split
      · next plain =>
        rw [if_pos plain] at complete
        rw [ih (by omega) complete]
        rfl
      next percent =>
      rw [if_neg percent] at complete
      cases s with
      | nil => simp at complete
      | cons c' s' =>
        simp only [List.cons_append, reduceCtorEq, if_false, List.head?_cons, List.tail_cons] at complete ⊢
        simp only [List.length_cons] at short
        by_cases doubled : some c' = some percentChar
        · simp only [doubled, if_true] at complete ⊢
          rw [ih (by omega) complete]
          rfl
        simp only [doubled, if_false] at complete ⊢
        cases found : parseDirective (c' :: s') with
        | none => simp [found] at complete
        | some result =>
          obtain ⟨d, rest⟩ := result
          have shorter := (parseDirective_suffix found).length_le
          simp only [List.length_cons] at shorter
          simp only [found] at complete
          have whole := parseDirective_append found t
          rw [List.cons_append] at whole
          simp only [whole, ih (show rest.length ≤ budget by omega) complete, List.cons_append]

theorem pieces_joined (f g : CString) (fits : f.bytes.length + g.bytes.length < wordModulus)
    (complete : Complete f) : pieces (joined f g fits) = pieces f ++ pieces g := by
  have length : (joined f g fits).bytes.length = f.bytes.length + g.bytes.length :=
    List.length_append
  rw [pieces, length]
  exact piecesWithin_append (Nat.le_refl _) (Nat.le_refl _) complete

/-! ## Formats that end inside a directive -/

/-- 'd' is no flag, digit, point or length modifier. -/
def letterD : UInt8 := 100

theorem parseDirective_letter (none : parseDirective s = none) :
    ∃ d, parseDirective (s ++ [letterD]) = some (d, []) := by
  have flags : isFlag letterD = false := by decide
  have digit : isDigit letterD = false := by decide
  have modifier : isLength letterD = false := by decide
  have precision (l : List UInt8) : skipPrecision (l ++ [letterD]) = skipPrecision l ++ [letterD] := by
    cases l with
    | nil => rfl
    | cons c l =>
      rw [List.cons_append, skipPrecision, skipPrecision]
      split
      · exact dropWhile_failing digit l
      · rfl
  simp only [parseDirective] at none
  split at none
  · next ended =>
    simp only [parseDirective, dropWhile_failing flags, dropWhile_failing digit, precision,
      dropWhile_failing modifier, ended, List.nil_append]
    exact ⟨_, rfl⟩
  · cases none

/-- A letter behind such a format ends the directive instead of standing for itself. -/
theorem letter_swallowed (short : s.length ≤ budget) (incomplete : completeWithin budget s = false) :
    piecesWithin (budget + 1) (s ++ [letterD]) ≠ piecesWithin budget s ++ [.literal letterD] := by
  induction budget generalizing s with
  | zero => simp [completeWithin] at incomplete
  | succ budget ih =>
    cases s with
    | nil => simp [completeWithin] at incomplete
    | cons c s =>
      simp only [List.length_cons] at short
      rw [completeWithin] at incomplete
      rw [List.cons_append, piecesWithin, piecesWithin]
      by_cases percent : c = percentChar
      · simp only [percent, ne_eq, not_true_eq_false, if_false] at incomplete ⊢
        cases s with
        | nil => simp [parseDirective, letterD, percentChar, skipPrecision, isFlag, isDigit, isLength,
            minusChar, zeroChar]
        | cons c' s' =>
          simp only [List.cons_append, reduceCtorEq, if_false, List.head?_cons, List.tail_cons]
            at incomplete ⊢
          simp only [List.length_cons] at short
          by_cases doubled : some c' = some percentChar
          · simp only [doubled, if_true] at incomplete ⊢
            intro same
            exact ih (by omega) incomplete (List.cons.inj same).2
          simp only [doubled, if_false] at incomplete ⊢
          cases found : parseDirective (c' :: s') with
          | none =>
            obtain ⟨d, whole⟩ := parseDirective_letter found
            rw [List.cons_append] at whole
            simp [whole]
          | some result =>
            obtain ⟨d, rest⟩ := result
            have shorter := (parseDirective_suffix found).length_le
            simp only [List.length_cons] at shorter
            simp only [found] at incomplete
            have whole := parseDirective_append found [letterD]
            rw [List.cons_append] at whole
            simp only [whole]
            intro same
            exact ih (show rest.length ≤ budget by omega) incomplete (List.cons.inj same).2
      · simp only [ne_eq, percent, not_false_eq_true, if_true] at incomplete ⊢
        intro same
        exact ih (by omega) incomplete (List.cons.inj same).2

/-! ## What the pieces fetch and feed -/

/-- Arguments are fetched from left to right, so a list of pieces can be cut anywhere. -/
theorem items_append (ps qs : List Piece) (ap : VaList) :
    items (ps ++ qs) ap = (items ps ap).bind (fun (its, ap) =>
      (items qs ap).map (fun (more, ap) => (its ++ more, ap))) := by
  induction ps generalizing ap with
  | nil => simp [items]
  | cons piece ps ih =>
    cases piece with
    | literal c =>
      rw [List.cons_append, items, items, ih, Option.bind_map, Option.map_bind]
      congr 1
      funext found
      simp [Function.comp_def]
    | directive d =>
      rw [List.cons_append, items, items]
      cases d.fetch with
      | none =>
        simp only [ih, Option.bind_map, Option.map_bind]
        congr 1
        funext found
        simp [Function.comp_def]
      | some type =>
        simp only [ih, Option.bind_assoc]
        congr 1
        funext fetched
        simp only [Option.bind_map, Option.map_bind]
        congr 1
        funext found
        simp [Function.comp_def]

/-- Arguments behind those a format uses stay unread, and earlier fetches do not matter. -/
theorem items_frame {args after : List VaArg} {log log' : List Fetch}
    (found : items ps ⟨args, log⟩ = some (its, ⟨after, log'⟩)) (extra : List VaArg)
    (before : List Fetch) :
    items ps ⟨args ++ extra, before ++ log⟩ = some (its, ⟨after ++ extra, before ++ log'⟩) := by
  induction ps generalizing args log its with
  | nil =>
    rw [items] at found ⊢
    cases found
    rfl
  | cons piece ps ih =>
    cases piece with
    | literal c =>
      rw [items] at found ⊢
      obtain ⟨⟨rest, ap⟩, inner, same⟩ := Option.map_eq_some_iff.mp found
      cases same
      rw [ih inner]
      rfl
    | directive d =>
      rw [items] at found ⊢
      cases fetch : d.fetch with
      | none =>
        simp only [fetch] at found ⊢
        obtain ⟨⟨rest, ap⟩, inner, same⟩ := Option.map_eq_some_iff.mp found
        cases same
        rw [ih inner]
        rfl
      | some type =>
        cases args with
        | nil => simp [fetch, vaArg] at found
        | cons arg args =>
          simp only [fetch, vaArg, Option.bind_some, List.cons_append] at found ⊢
          obtain ⟨⟨rest, ap⟩, inner, same⟩ := Option.map_eq_some_iff.mp found
          cases same
          rw [List.append_assoc, ih inner]
          rfl

/-- One call with both formats and all arguments makes the items of the two calls. -/
theorem items_joined {f g : CString} (fits : f.bytes.length + g.bytes.length < wordModulus)
    (complete : Complete f) {args args' left : List VaArg} {log log' : List Fetch}
    {more : List Item} (first : items (pieces f) ⟨args, []⟩ = some (its, ⟨[], log⟩))
    (second : items (pieces g) ⟨args', []⟩ = some (more, ⟨left, log'⟩)) :
    items (pieces (joined f g fits)) ⟨args ++ args', []⟩ =
      some (its ++ more, ⟨left, log ++ log'⟩) := by
  have start := items_frame first args' []
  have next := items_frame second [] log
  rw [List.append_nil, List.append_nil, List.append_nil] at next
  rw [List.nil_append, List.nil_append, List.nil_append] at start
  simp only [pieces_joined f g fits complete, items_append, start, Option.bind_some, next,
    Option.map_some]

end AxiomeToolchain.Source.Format
