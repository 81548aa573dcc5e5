import AxiomeToolchain.Source.Driver

/-!
# What an argument list says

The reading that the drivers are measured against: `-o` takes the next token;
a bare `-I` or `-D` (for axtcc also `-U`) takes the next token unless that is
`-o`. The lists that the drivers build by suffix, prefix and equality tests are
expressed item by item over this reading.
-/

set_option autoImplicit false

namespace AxiomeToolchain.Source.DriverReading
open AxiomeToolchain.Library.OptionList
open AxiomeToolchain.Library.Parts
open AxiomeToolchain.Source.Driver

/-- `names` are the options with an operand that a compile gets. -/
def grammar (names : List String) : Grammar Token where
  opens a := a = text "-o" || names.any (fun name => a = text name)
  accepts o a := o = text "-o" || a ≠ text "-o"

def axccNames : List String := ["-I", "-D"]

def axtccNames : List String := ["-I", "-D", "-U"]

def startsOption (names : List String) (a : Token) : Bool := names.any (fun name => startsWith name a)

/-- An option for the compiles, written as one token or with its operand. -/
def isOption (names : List String) : Item Token → Bool
  | .word a => startsOption names a
  | .pair o _ => o ≠ text "-o"
  | .dangling o => o ≠ text "-o"

def isFile (a : Token) : Bool := !startsWith "-" a && (endsWith ".c" a || endsWith ".o" a)

def inputOf (suffix : String) : Item Token → List Token
  | .word a => if !startsWith "-" a && endsWith suffix a then [a] else []
  | _ => []

def remainingOf (names : List String) : Item Token → List Token
  | .word a => if startsOption names a || isFile a then [] else [a]
  | _ => []

def items (names : List String) (args : List Token) : List (Item Token) := (grammar names).read args

def options (names : List String) (args : List Token) : List (Item Token) :=
  (items names args).filter (isOption names)

def sourceInputs (names : List String) (args : List Token) : List Token :=
  (items names args).flatMap (inputOf ".c")

def objectInputs (names : List String) (args : List Token) : List Token :=
  (items names args).flatMap (inputOf ".o")

def remaining (names : List String) (args : List Token) : List Token :=
  (items names args).flatMap (remainingOf names)

/-- Only inputs look like inputs. -/
def PlainInputs (names : List String) (args : List Token) : Prop :=
  ∀ item ∈ items names args, ∀ a ∈ item.tokens, endsWith ".c" a = true ∨ endsWith ".o" a = true →
    item = .word a ∧ startsWith "-" a = false

instance (names : List String) (args : List Token) : Decidable (PlainInputs names args) :=
  inferInstanceAs (Decidable (∀ item ∈ items names args, ∀ a ∈ item.tokens, _ → _))

variable {names : List String} {args : List Token} {item : Item Token} {a o : Token}

theorem filter_items (names : List String) (chosen : Token → Bool) (args : List Token) :
    args.filter chosen = (items names args).flatMap (fun item => item.tokens.filter chosen) := by
  conv => lhs; rw [← read_tokens (g := grammar names) args]
  rw [List.filter_flatMap]
  rfl

/-! ## Option names -/

/-- What the proofs use of the option names. -/
structure Known (names : List String) : Prop where
  dashed : ∀ name ∈ names, startsWith "-" (text name) = true
  notO : startsOption names (text "-o") = false

theorem known_axcc : Known axccNames := ⟨by decide, by decide⟩

theorem known_axtcc : Known axtccNames := ⟨by decide, by decide⟩

theorem axccOption_eq : axccOption = startsOption axccNames := by
  funext a
  simp [axccOption, startsOption, axccNames, Bool.or_comm]

theorem axtccOption_eq : axtccOption = startsOption axtccNames := by
  funext a
  simp only [axtccOption, startsOption, axtccNames, List.any_cons, List.any_nil, Bool.or_false]
  rw [← Bool.or_assoc, Bool.or_comm (startsWith "-D" a)]

theorem startsOption_of_opens (opens : (grammar names).opens o = true) (notO : o ≠ text "-o") :
    startsOption names o = true := by
  simp only [grammar, Bool.or_eq_true, decide_eq_true_eq, notO, false_or] at opens
  obtain ⟨name, member, same⟩ := List.any_eq_true.mp opens
  refine List.any_eq_true.mpr ⟨name, member, ?_⟩
  rw [of_decide_eq_true same, startsWith, List.isPrefixOf_iff_prefix]

theorem startsWith_dash (known : Known names) (starts : startsOption names a = true) :
    startsWith "-" a = true := by
  obtain ⟨name, member, before⟩ := List.any_eq_true.mp starts
  have dash := known.dashed name member
  rw [startsWith, List.isPrefixOf_iff_prefix] at *
  exact dash.trans before

theorem ne_of_startsOption (known : Known names) (starts : startsOption names a = true) :
    a ≠ text "-o" := by
  intro same
  rw [same, known.notO] at starts
  cases starts

/-- A token without a dash is no option. -/
theorem opens_of_no_dash (known : Known names) (plain : startsWith "-" a = false) :
    a ≠ text "-o" ∧ (grammar names).opens a = false := by
  have notO : a ≠ text "-o" := by
    rintro rfl
    exact absurd plain (by decide)
  refine ⟨notO, ?_⟩
  rw [Bool.eq_false_iff]
  intro opens
  rw [startsWith_dash known (startsOption_of_opens opens notO)] at plain
  cases plain

theorem mem_sourceInputs (member : a ∈ sourceInputs names args) : startsWith "-" a = false := by
  obtain ⟨item, -, inside⟩ := List.mem_flatMap.mp member
  cases item with
  | word b =>
    rw [inputOf] at inside
    split at inside
    · next both =>
      rw [List.mem_singleton.mp inside]
      simpa using (Bool.and_eq_true_iff.mp both).1
    · cases inside
  | pair => cases inside
  | dangling => cases inside

/-! ## Inputs -/

theorem inputOf_sublist (suffix : String) (item : Item Token) :
    (inputOf suffix item).Sublist (item.tokens.filter (endsWith suffix)) := by
  cases item with
  | word a =>
    rw [inputOf, Item.tokens]
    split
    · next both =>
      rw [Bool.and_eq_true] at both
      rw [List.filter_cons_of_pos both.2]
      exact List.Sublist.refl _
    · exact List.nil_sublist _
  | pair => exact List.nil_sublist _
  | dangling => exact List.nil_sublist _

theorem inputOf_eq_iff (suffix : String) (item : Item Token) :
    item.tokens.filter (endsWith suffix) = inputOf suffix item ↔
      ∀ a ∈ item.tokens, endsWith suffix a = true → item = .word a ∧ startsWith "-" a = false := by
  cases item with
  | word a =>
    cases ends : endsWith suffix a <;> cases dash : startsWith "-" a <;>
      simp [inputOf, Item.tokens, ends, dash]
  | pair o a => simp [inputOf, Item.tokens]
  | dangling o => simp [inputOf, Item.tokens]

theorem filter_eq_inputs_iff (suffix : String) :
    args.filter (endsWith suffix) = (items names args).flatMap (inputOf suffix) ↔
      ∀ item ∈ items names args, ∀ a ∈ item.tokens, endsWith suffix a = true →
        item = .word a ∧ startsWith "-" a = false := by
  rw [filter_items names,
    flatMap_eq_iff_of_sublist (fun item _ => inputOf_sublist suffix item)]
  exact forall₂_congr (fun item _ => inputOf_eq_iff suffix item)

/-- The suffix tests find the inputs, and nothing else, exactly when nothing
else looks like an input. -/
theorem files_iff :
    cFiles args = sourceInputs names args ∧ oFiles args = objectInputs names args ↔
      PlainInputs names args := by
  rw [cFiles, oFiles, sourceInputs, objectInputs, filter_eq_inputs_iff, filter_eq_inputs_iff]
  constructor
  · rintro ⟨sources, objects⟩ item member a inside (ends | ends)
    · exact sources item member a inside ends
    · exact objects item member a inside ends
  · intro plain
    constructor
    · exact fun item member a inside ends => plain item member a inside (.inl ends)
    · exact fun item member a inside ends => plain item member a inside (.inr ends)

/-- One list of objects tells both lists of inputs. -/
theorem plain_iff_objects (objectOf : Token → Token) :
    oFiles args ++ (cFiles args).map objectOf =
        objectInputs names args ++ (sourceInputs names args).map objectOf ↔
      PlainInputs names args := by
  constructor
  · intro same
    have sources : (sourceInputs names args).Sublist (cFiles args) := by
      rw [cFiles, filter_items names]
      exact List.Sublist.flatMap_right _ (fun item _ => inputOf_sublist ".c" item)
    have objects : (objectInputs names args).Sublist (oFiles args) := by
      rw [oFiles, filter_items names]
      exact List.Sublist.flatMap_right _ (fun item _ => inputOf_sublist ".o" item)
    have lengths := congrArg List.length same
    rw [List.length_append, List.length_append, List.length_map, List.length_map] at lengths
    have fewer := sources.length_le
    have fewer' := objects.length_le
    exact files_iff.mp
      ⟨(sources.eq_of_length (by omega)).symm, (objects.eq_of_length (by omega)).symm⟩
  · intro plain
    obtain ⟨sources, objects⟩ := files_iff.mpr plain
    rw [sources, objects]

/-! ## The filter loop of axcc -/

def notFile (a : Token) : Bool := !endsWith ".c" a && !endsWith ".o" a

/-- What axcc keeps of an item. -/
def keptOf : Item Token → List Token
  | .word a => [a].filter notFile
  | .pair o a => if o = text "-o" then [] else [o, a].filter notFile
  | .dangling o => if o = text "-o" then [] else [o].filter notFile

/-- What the loop has kept of the option that is still open. -/
def keptOpen : Option Token → List Token
  | none => []
  | some o => if o = text "-o" then [] else [o].filter notFile

/-- `skip` of the loop is an open `-o` of the reading. -/
def skips : Option Token → Bool
  | none => false
  | some o => o = text "-o"

theorem filterLoop_cons (all : List Token) (member : a ∈ all) (notO : a ≠ text "-o")
    (rest : List Token) :
    filterLoop all false (a :: rest) = [a].filter notFile ++ filterLoop all false rest := by
  rw [filterLoop, if_neg notO]
  simp only [mem_cFiles member, mem_oFiles member]
  cases c : endsWith ".c" a <;> cases o : endsWith ".o" a <;> simp [notFile, c, o]

/-- An open option other than `-o` has already been kept. -/
theorem filterLoop_readFrom (names : List String) (all : List Token) (o : Option Token) (l : List Token)
    (within : ∀ a ∈ l, a ∈ all) :
    keptOpen o ++ filterLoop all (skips o) l =
      ((grammar names).readFrom o l).flatMap keptOf := by
  induction l generalizing o with
  | nil => cases o <;> simp [filterLoop, keptOpen, Grammar.readFrom, Grammar.closed, Grammar.pending,
      keptOf]
  | cons a rest ih =>
    obtain ⟨member, later⟩ := List.forall_mem_cons.mp within
    have ih := fun o => ih o later
    rw [readFrom_cons, List.flatMap_append, ← ih]
    have start : filterLoop all false (a :: rest) =
        ((grammar names).start a).1.flatMap keptOf ++
          (keptOpen ((grammar names).start a).2 ++
            filterLoop all (skips ((grammar names).start a).2) rest) := by
      by_cases isO : a = text "-o"
      · simp [Grammar.start, grammar, isO, keptOpen, skips, filterLoop]
      · rw [filterLoop_cons all member isO]
        cases opens : (grammar names).opens a <;>
          simp [Grammar.start, opens, isO, keptOpen, skips, keptOf]
    cases o with
    | none => exact start
    | some o =>
      by_cases openO : o = text "-o"
      · simp [openO, keptOpen, skips, Grammar.step, grammar, filterLoop, keptOf]
      · by_cases isO : a = text "-o"
        · simp [openO, isO, keptOpen, skips, Grammar.step, Grammar.start, grammar, filterLoop, keptOf]
        · have accepted : (grammar names).accepts o a = true := by simp [grammar, openO, isO]
          rw [Grammar.step, if_pos accepted]
          simp [openO, keptOpen, skips, keptOf, filterLoop_cons all member isO, List.filter_cons]
          split <;> simp

theorem filtered_eq (names : List String) (args : List Token) :
    filtered args = (items names args).flatMap keptOf := by
  have whole := filterLoop_readFrom names args none args (fun _ member => member)
  simpa [keptOpen, skips, filtered, items, Grammar.read] using whole

theorem notFile_of_plain (plain : PlainInputs names args) (member : item ∈ items names args)
    (inside : a ∈ item.tokens) (ne : item = .word a → isFile a = false) : notFile a = true := by
  rw [notFile, Bool.and_eq_true, Bool.not_eq_true', Bool.not_eq_true', ← Bool.or_eq_false_iff,
    Bool.eq_false_iff, ne_eq, Bool.or_eq_true]
  intro ends
  obtain ⟨word, noDash⟩ := plain item member a inside ends
  have file : isFile a = true := by
    rw [isFile, noDash, Bool.not_false, Bool.true_and, Bool.or_eq_true]
    exact ends
  rw [ne word] at file
  cases file

/-- With only inputs looking like inputs, the loop keeps every other token. -/
theorem keptOf_eq (plain : PlainInputs names args) (member : item ∈ items names args) :
    keptOf item = match item with
      | .word a => if isFile a then [] else [a]
      | .pair o a => if o = text "-o" then [] else [o, a]
      | .dangling o => if o = text "-o" then [] else [o] := by
  cases item with
  | word a =>
    cases file : isFile a with
    | false =>
      have kept := notFile_of_plain plain member (List.mem_singleton.mpr rfl) (fun _ => file)
      simp [keptOf, kept, file]
    | true =>
      have ends := file
      rw [isFile, Bool.and_eq_true, Bool.or_eq_true] at ends
      rcases ends.2 with ends | ends <;> simp [keptOf, notFile, ends, file]
  | pair o a =>
    have first := notFile_of_plain (a := o) plain member (by simp [Item.tokens]) (by simp)
    have second := notFile_of_plain (a := a) plain member (by simp [Item.tokens]) (by simp)
    simp [keptOf, first, second]
  | dangling o =>
    have first := notFile_of_plain (a := o) plain member (by simp [Item.tokens]) (by simp)
    simp [keptOf, first]

end AxiomeToolchain.Source.DriverReading
