import AxiomeToolchain.Source.Format

/-!
# What a format says

A format is a list of literal bytes and directives; one that ends inside a
directive says nothing from its '%' on. `scanLoop_eq` reduces a run of either
engine, over the bytes and their NUL, to a run over these pieces: the scanner
neither fails nor runs out of its budget.
-/

set_option autoImplicit false

namespace AxiomeToolchain.Source.Format
open AxiomeToolchain.Library.CInt
open AxiomeToolchain.Library.Sink
open AxiomeToolchain.Source.Stdio

inductive Piece where
  | literal (c : UInt8)
  | directive (d : Directive)
  deriving DecidableEq, Repr

/-- The number that decimal digits continue `start` to. -/
def decimalFrom (start : Int) (digits : List UInt8) : Int :=
  digits.foldl (fun n c => n * 10 + (c.toNat - 48)) start

def skipPrecision : List UInt8 → List UInt8
  | [] => []
  | c :: s => if c = 46 then s.dropWhile isDigit else c :: s

/-- A directive behind its '%', with the width as a number of any size. -/
def parseDirective (s : List UInt8) : Option (Directive × List UInt8) :=
  let flags := s.takeWhile isFlag
  let s := s.dropWhile isFlag
  let width := decimalFrom 0 (s.takeWhile isDigit)
  let s := skipPrecision (s.dropWhile isDigit)
  let modifiers := s.takeWhile isLength
  match s.dropWhile isLength with
  | [] => none
  | spec :: rest =>
    some (⟨flags.contains minusChar, flags.contains zeroChar, width, !modifiers.isEmpty, spec⟩, rest)

/-- The pieces of a format, one byte at least for each step of the budget. -/
def piecesWithin : Nat → List UInt8 → List Piece
  | 0, _ => []
  | _ + 1, [] => []
  | budget + 1, c :: s =>
    if c ≠ percentChar then .literal c :: piecesWithin budget s
    else if s = [] then []
    else if s.head? = some percentChar then .literal percentChar :: piecesWithin budget s.tail
    else match parseDirective s with
      | none => []
      | some (d, rest) => .directive d :: piecesWithin budget rest

def pieces (fmt : CString) : List Piece := piecesWithin fmt.bytes.length fmt.bytes

/-- The directive as the engines hold it, with the width in an `int`. -/
def Directive.stored (d : Directive) : Directive := { d with width := wrapInt d.width }

@[simp] theorem Directive.stored_leftAlign (d : Directive) : d.stored.leftAlign = d.leftAlign := rfl
@[simp] theorem Directive.stored_zeroPad (d : Directive) : d.stored.zeroPad = d.zeroPad := rfl
@[simp] theorem Directive.stored_width (d : Directive) : d.stored.width = wrapInt d.width := rfl
@[simp] theorem Directive.stored_longflag (d : Directive) : d.stored.longflag = d.longflag := rfl
@[simp] theorem Directive.stored_spec (d : Directive) : d.stored.spec = d.spec := rfl

variable {σ : Type} {put : σ → UInt8 → Option σ}
  {convert : Directive → σ → VaList → Option (σ × VaList)} {s rest : List UInt8} {d : Directive}
  {budget : Nat}

def runPieces (put : σ → UInt8 → Option σ)
    (convert : Directive → σ → VaList → Option (σ × VaList)) :
    List Piece → σ → VaList → Option (σ × VaList)
  | [], st, ap => some (st, ap)
  | .literal c :: ps, st, ap => (put st c).bind (fun st => runPieces put convert ps st ap)
  | .directive d :: ps, st, ap =>
    (convert d.stored st ap).bind (fun (st, ap) => runPieces put convert ps st ap)

/-! ## The scanner against the grammar -/

theorem scanFlags_eq (s : List UInt8) (leftAlign zeroPad : Bool) :
    scanFlags (s ++ [0]) leftAlign zeroPad =
      some (leftAlign || (s.takeWhile isFlag).contains minusChar,
        zeroPad || (s.takeWhile isFlag).contains zeroChar, s.dropWhile isFlag ++ [0]) := by
  induction s generalizing leftAlign zeroPad with
  | nil => simp [scanFlags, isFlag, minusChar, zeroChar]
  | cons c s ih =>
    rw [List.cons_append, scanFlags]
    cases flag : isFlag c with
    | true =>
      simp only [if_true, ih, List.takeWhile_cons, List.dropWhile_cons, flag, List.contains_cons,
        Bool.or_assoc, beq_eq_decide, eq_comm (a := c)]
    | false =>
      simp [flag]

theorem wrapInt_step (width digit : Int) :
    wrapInt (wrapInt (wrapInt width * 10) + digit) = wrapInt (width * 10 + digit) := by
  unfold wrapInt
  omega

theorem scanWidth_eq (s : List UInt8) (width : Int) :
    scanWidth (s ++ [0]) (wrapInt width) =
      some (wrapInt (decimalFrom width (s.takeWhile isDigit)), s.dropWhile isDigit ++ [0]) := by
  induction s generalizing width with
  | nil => simp [scanWidth, isDigit, decimalFrom]
  | cons c s ih =>
    rw [List.cons_append, scanWidth]
    cases digit : isDigit c with
    | true =>
      rw [if_pos rfl, wrapInt_step, ih]
      simp only [List.takeWhile_cons, List.dropWhile_cons, digit, if_true, decimalFrom,
        List.foldl_cons]
    | false =>
      simp [digit, decimalFrom]

theorem scanDigits_eq (s : List UInt8) :
    scanDigits (s ++ [0]) = some (s.dropWhile isDigit ++ [0]) := by
  induction s with
  | nil => simp [scanDigits, isDigit]
  | cons c s ih =>
    rw [List.cons_append, scanDigits, List.dropWhile_cons]
    split
    · exact ih
    · rfl

theorem scanPrecision_eq (s : List UInt8) :
    scanPrecision (s ++ [0]) = some (skipPrecision s ++ [0]) := by
  cases s with
  | nil => simp [scanPrecision, skipPrecision]
  | cons c s =>
    rw [List.cons_append, scanPrecision, skipPrecision]
    split
    · exact scanDigits_eq s
    · rfl

theorem scanLength_eq (s : List UInt8) (longflag : Bool) :
    scanLength (s ++ [0]) longflag =
      some (longflag || !(s.takeWhile isLength).isEmpty, s.dropWhile isLength ++ [0]) := by
  induction s generalizing longflag with
  | nil => simp [scanLength, isLength]
  | cons c s ih =>
    rw [List.cons_append, scanLength]
    cases modifier : isLength c with
    | true => simp [ih, modifier]
    | false => simp [modifier]

theorem skipPrecision_suffix (s : List UInt8) : skipPrecision s <:+ s := by
  cases s with
  | nil => exact List.suffix_rfl
  | cons c s =>
    rw [skipPrecision]
    split
    · exact (List.dropWhile_suffix _).trans (List.suffix_cons c s)
    · exact List.suffix_rfl

/-- At the terminator exactly when nothing is left. -/
theorem atEnd_iff (nul_free : (0 : UInt8) ∉ s) : (s ++ [0]).head? = some 0 ↔ s = [] := by
  cases s with
  | nil => simp
  | cons c s =>
    have nonzero : c ≠ 0 := fun zero => nul_free (zero ▸ List.mem_cons_self)
    simp [nonzero]

theorem scanDirective_eq (nul_free : (0 : UInt8) ∉ s) :
    scanDirective (s ++ [0]) =
      some ((parseDirective s).map (fun (d, rest) => (d.stored, d.spec :: rest ++ [0]))) := by
  have flags_rest : s.dropWhile isFlag <:+ s := List.dropWhile_suffix _
  have width_rest := (List.dropWhile_suffix (l := s.dropWhile isFlag) isDigit).trans flags_rest
  have precision_rest :=
    (skipPrecision_suffix ((s.dropWhile isFlag).dropWhile isDigit)).trans width_rest
  have length_rest := (List.dropWhile_suffix
    (l := skipPrecision ((s.dropWhile isFlag).dropWhile isDigit)) isLength).trans precision_rest
  have free {t : List UInt8} (suffix : t <:+ s) : (0 : UInt8) ∉ t :=
    fun member => nul_free (suffix.subset member)
  have width_scan := scanWidth_eq (s.dropWhile isFlag) 0
  rw [show wrapInt 0 = 0 by decide] at width_scan
  simp only [scanDirective, scanFlags_eq, Option.bind_some, atEnd_iff (free flags_rest), parseDirective]
  split
  · next ended => simp [ended, skipPrecision]
  simp only [width_scan, Option.bind_some, atEnd_iff (free width_rest)]
  split
  · next ended => simp [ended, skipPrecision]
  simp only [scanPrecision_eq, Option.bind_some, atEnd_iff (free precision_rest)]
  split
  · next ended => simp [ended]
  simp only [scanLength_eq, Option.bind_some, atEnd_iff (free length_rest)]
  split
  · next ended => simp [ended]
  · next more =>
    obtain ⟨spec, rest, left⟩ := List.exists_cons_of_ne_nil more
    simp [left, Directive.stored]

theorem parseDirective_suffix (found : parseDirective s = some (d, rest)) : d.spec :: rest <:+ s := by
  simp only [parseDirective] at found
  split at found
  · cases found
  · next spec tail left =>
    cases found
    rw [← left]
    exact ((List.dropWhile_suffix _).trans (skipPrecision_suffix _)).trans
      ((List.dropWhile_suffix _).trans (List.dropWhile_suffix _))

/-- Either engine's loop over a format is a run over the pieces of the format. -/
theorem scanLoop_eq (short : s.length ≤ budget) (nul_free : (0 : UInt8) ∉ s) (st : σ) (ap : VaList) :
    scanLoop put convert (budget + 1) (s ++ [0]) st ap =
      runPieces put convert (piecesWithin budget s) st ap := by
  induction budget generalizing s st ap with
  | zero =>
    cases List.eq_nil_of_length_eq_zero (Nat.le_zero.mp short)
    rfl
  | succ budget ih =>
    cases s with
    | nil => rfl
    | cons c s =>
      have nonzero : c ≠ 0 := fun zero => nul_free (zero ▸ List.mem_cons_self)
      have free : (0 : UInt8) ∉ s := fun member => nul_free (List.mem_cons_of_mem c member)
      simp only [List.length_cons] at short
      rw [List.cons_append, scanLoop, if_neg nonzero, piecesWithin]
      split
      · rw [runPieces]
        congr 1
        funext st
        exact ih (by omega) free st ap
      simp only [atEnd_iff free]
      split
      · rfl
      · next more =>
        obtain ⟨c', s', rfl⟩ := List.exists_cons_of_ne_nil more
        have free' : (0 : UInt8) ∉ s' := fun member => free (List.mem_cons_of_mem c' member)
        simp only [List.length_cons] at short
        simp only [List.cons_append, List.head?_cons, List.tail_cons]
        by_cases percent : some c' = some percentChar
        · simp only [percent, if_true, runPieces]
          congr 1
          funext st
          exact ih (by omega) free' st ap
        · simp only [percent, if_false]
          rw [← List.cons_append, scanDirective_eq free, Option.bind_some]
          cases found : parseDirective (c' :: s') with
          | none => rfl
          | some result =>
            obtain ⟨d, rest⟩ := result
            have suffix := parseDirective_suffix found
            have shorter := suffix.length_le
            simp only [List.length_cons] at shorter
            have free_rest : (0 : UInt8) ∉ rest :=
              fun member => free (suffix.subset (List.mem_cons_of_mem _ member))
            simp only [Option.map_some, runPieces, List.cons_append, List.tail_cons]
            congr 1
            funext ⟨st, ap⟩
            exact ih (by omega) free_rest st ap

theorem scanLoop_pieces (fmt : CString) (st : σ) (ap : VaList) :
    scanLoop put convert fmt.terminated.length fmt.terminated st ap =
      runPieces put convert (pieces fmt) st ap := by
  have budget : fmt.terminated.length = fmt.bytes.length + 1 := by
    simp [CString.terminated]
  rw [budget]
  exact scanLoop_eq (Nat.le_refl _) fmt.nul_free st ap

end AxiomeToolchain.Source.Format
