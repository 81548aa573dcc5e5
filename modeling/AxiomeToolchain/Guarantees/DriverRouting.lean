import AxiomeToolchain.Source.DriverRuns

/-!
# Where the drivers send the tokens of an argument list

The promise is that the value of `-o` is not an input, that every option for the
compiles reaches each of them with its operand and none reaches the linker, and
that the rest is forwarded to axld in order. Neither driver knows the operand of
an option written as two tokens, so the promise needs conditions on the list.
-/

set_option autoImplicit false

namespace AxiomeToolchain.Guarantees.DriverRouting
open AxiomeToolchain.Library.OptionList
open AxiomeToolchain.Library.Parts
open AxiomeToolchain.Source.Driver
open AxiomeToolchain.Source.DriverReading
open AxiomeToolchain.Source.DriverRuns

/-- The promise, of one run. -/
structure Routed (names : List String) (host : Host) (args : List Token) (build : Build) : Prop where
  compiles : ∀ c ∈ build.compiles,
    c.source ∈ sourceInputs names args ∧ Gives names (options names args) c
  objects : ∀ link ∈ build.link, link.objects =
    objectInputs names args ++ (sourceInputs names args).map (objectPath host)
  forwarded : ∀ link ∈ build.link, link.wrapper = true → link.forwarded = remaining names args

/-- `-o` is absent or followed by a value. -/
def OutFollowed (args : List Token) : Prop := text "-o" ∈ args → (tokenAfterO args).isSome

instance (args : List Token) : Decidable (OutFollowed args) :=
  inferInstanceAs (Decidable (_ → _))

/-- No operand of an option is a token of its own, unless it looks like an option. -/
def Joined (names : List String) (args : List Token) : Prop :=
  ∀ o a, .pair o a ∈ items names args → o ≠ text "-o" → startsOption names a = true

/-- No option lacks its operand. -/
def Supplied (names : List String) (args : List Token) : Prop :=
  ∀ o, .dangling o ∈ items names args → o = text "-o"

structure AxccRoutable (args : List Token) : Prop where
  inputs : PlainInputs axccNames args
  joined : Joined axccNames args
  supplied : sourceInputs axccNames args ≠ [] → Supplied axccNames args

/-- The item is an option, or `-o` with its value. -/
def isSetting (names : List String) : Item Token → Bool
  | .word a => startsOption names a
  | _ => true

/-- The tokens of settings that axtcc keeps from the linker. -/
def Withheld (out a : Token) : Prop :=
  a = text "-o" ∨ a = out ∨ startsOption axccNames a = true

instance (out a : Token) : Decidable (Withheld out a) := inferInstanceAs (Decidable (_ ∨ _))

/-- The tokens, read by themselves, show the options of the list in order. -/
def ReadBack (names : List String) (args tokens : List Token) : Prop :=
  (grammar names).Complete tokens ∧ (options names args).Sublist (items names tokens)

/-- Some output is named like an option that takes an operand. -/
def OptionOutput (names : List String) (args : List Token) : Prop :=
  ∃ name ∈ names, .pair (text "-o") (text name) ∈ items names args

instance (names : List String) (args : List Token) : Decidable (OptionOutput names args) :=
  inferInstanceAs (Decidable (∃ name ∈ names, _))

/-- axtcc looks for options among the outputs too, and an output named like an
option can take the place of one only if all that it finds reads back. -/
structure AxtccRoutable (args : List Token) : Prop where
  inputs : PlainInputs axtccNames args
  others : axtccOut args ∉ remaining axtccNames args
  settings : ∀ item ∈ items axtccNames args, isSetting axtccNames item = true → ∀ a ∈ item.tokens,
    Withheld (axtccOut args) a
  joined : sourceInputs axtccNames args ≠ [] → Joined axtccNames args
  supplied : sourceInputs axtccNames args ≠ [] → Supplied axtccNames args
  outputs : sourceInputs axtccNames args ≠ [] → OptionOutput axtccNames args →
    ReadBack axtccNames args (args.filter (startsOption axtccNames))

variable {names : List String} {args tokens : List Token} {item : Item Token} {a o : Token}

/-! ## Reading back -/

theorem ReadBack.supplied (known : Known names) (within : ∀ a ∈ tokens, startsOption names a = true)
    (back : ReadBack names args tokens) : Supplied names args := by
  obtain ⟨complete, order⟩ := back
  intro o member
  by_contra notO
  have chosen : .dangling o ∈ options names args :=
    List.mem_filter.mpr ⟨member, by simpa [isOption] using notO⟩
  have closed := order.subset chosen
  rw [items, complete.read_eq] at closed
  refine closed_not_dangling (fun a inside option => accepts_of_ne ?_ option) o closed
  exact ne_of_startsOption known (within a inside)

theorem ReadBack.joined (within : ∀ a ∈ tokens, startsOption names a = true)
    (back : ReadBack names args tokens) : Joined names args := by
  intro o a member notO
  have chosen : .pair o a ∈ options names args :=
    List.mem_filter.mpr ⟨member, by simpa [isOption] using notO⟩
  have inside : a ∈ (items names tokens).flatMap Item.tokens :=
    List.mem_flatMap.mpr ⟨_, back.2.subset chosen, by simp [Item.tokens]⟩
  rw [items, read_tokens] at inside
  exact within a inside

/-- The tokens of proper items with their operands read back as these items. -/
theorem readBack_of_items {found : List (Item Token)} (same : tokens = found.flatMap Item.tokens)
    (proper : ∀ item ∈ found, (grammar names).Proper item) (closed : ∀ o, .dangling o ∉ found)
    (order : (options names args).Sublist found) : ReadBack names args tokens := by
  obtain ⟨complete, read⟩ := read_items found proper closed
  rw [← same] at complete read
  exact ⟨complete, by rwa [items, read]⟩

/-! ## axcc -/

theorem option_of_item (member : item ∈ items names args)
    (head : ∃ a, item = .pair o a ∨ item = .dangling o) (notO : o ≠ text "-o") :
    startsOption names o = true := by
  have proper := read_proper (g := grammar names) args item member
  obtain ⟨a, rfl | rfl⟩ := head
  · exact startsOption_of_opens proper.1 notO
  · exact startsOption_of_opens proper notO

theorem isFile_not_option (known : Known names) (file : isFile a = true) :
    startsOption names a = false := by
  rw [Bool.eq_false_iff]
  intro starts
  rw [isFile, startsWith_dash known starts] at file
  cases file

/-- What axcc forwards of one item. -/
theorem forwardedOf (plain : PlainInputs names args)
    (member : item ∈ items names args) :
    (remainingOf names item).Sublist ((keptOf item).filter (fun a => !startsOption names a)) ∧
      ((keptOf item).filter (fun a => !startsOption names a) = remainingOf names item ↔
        ∀ o a, item = .pair o a → o ≠ text "-o" → startsOption names a = true) := by
  rw [keptOf_eq plain member]
  cases item with
  | word a =>
    cases file : isFile a <;> cases starts : startsOption names a <;>
      simp [remainingOf, file, starts]
  | pair o a =>
    by_cases isO : o = text "-o"
    · simp [remainingOf, isO]
    · have starts := option_of_item member ⟨a, .inl rfl⟩ isO
      simp [remainingOf, isO, starts]
  | dangling o =>
    by_cases isO : o = text "-o"
    · simp [remainingOf, isO]
    · have starts := option_of_item member ⟨o, .inr rfl⟩ isO
      simp [remainingOf, isO, starts]

theorem axcc_forwarded_iff (plain : PlainInputs names args) :
    (filtered args).filter (fun a => !startsOption names a) = remaining names args ↔
      Joined names args := by
  rw [filtered_eq names, List.filter_flatMap, remaining,
    flatMap_eq_iff_of_sublist (fun item member => (forwardedOf plain member).1)]
  constructor
  · intro same o a member
    exact (forwardedOf plain member).2.mp (same _ member) o a rfl
  · intro joined item member
    apply (forwardedOf plain member).2.mpr
    intro o a same
    exact joined o a (same ▸ member)

/-- What axcc passes on to the compiles is the tokens of the options. -/
theorem axcc_passed (known : Known names) (plain : PlainInputs names args)
    (joined : Joined names args) :
    (filtered args).filter (startsOption names) = (options names args).flatMap Item.tokens := by
  rw [filtered_eq names, List.filter_flatMap, options, flatMap_filter]
  apply List.flatMap_congr
  intro item member
  rw [keptOf_eq plain member]
  cases item with
  | word a =>
    cases file : isFile a with
    | false => cases starts : startsOption names a <;> simp [isOption, file, starts, Item.tokens]
    | true =>
      have starts := isFile_not_option known file
      simp [isOption, file, starts]
  | pair o a =>
    by_cases isO : o = text "-o"
    · simp [isOption, isO]
    · have starts := option_of_item member ⟨a, .inl rfl⟩ isO
      have operand := joined o a member isO
      simp [isOption, isO, starts, operand, Item.tokens]
  | dangling o =>
    by_cases isO : o = text "-o"
    · simp [isOption, isO]
    · have starts := option_of_item member ⟨o, .inr rfl⟩ isO
      simp [isOption, isO, starts, Item.tokens]

/-- The options reach the compiles of axcc exactly when each has its operand. -/
theorem axcc_operands_iff (known : Known names) (plain : PlainInputs names args)
    (joined : Joined names args) :
    ReadBack names args ((filtered args).filter (startsOption names)) ↔ Supplied names args := by
  constructor
  · exact fun back => back.supplied known (fun a inside => (List.mem_filter.mp inside).2)
  · intro supplied
    refine readBack_of_items (axcc_passed known plain joined) ?_ ?_ (List.Sublist.refl _)
    · exact fun item member => read_proper args item (List.mem_filter.mp member).1
    · intro o member
      obtain ⟨inside, option⟩ := List.mem_filter.mp member
      rw [supplied o inside] at option
      simp [isOption] at option

/-- A host with axld and no file besides, on which every command succeeds. -/
def willingHost : Host :=
  { sdk := [], cc := [], gcc := [], tcc := none, whichLd := none, home := [],
    isFile := fun _ => false, executable := fun _ => false, axld := [], axldExists := true,
    axldExecutable := true, tmpdir := [], status := fun _ => 0 }

theorem axccLink_objects (host : Host) (args objs : List Token) (out : Token) :
    (axccLink host args objs out).objects = objs := by
  unfold axccLink
  split <;> rfl

theorem axccLink_forwarded {host : Host} {objs : List Token} {out : Token}
    (wrapper : (axccLink host args objs out).wrapper = true) :
    (axccLink host args objs out).forwarded =
      (filtered args).filter (fun a => !startsOption axccNames a) := by
  unfold axccLink at wrapper ⊢
  split at wrapper
  · next found =>
    rw [if_pos found]
    simp [startsOption, axccNames]
  · cases wrapper

theorem axccCompile_gives (host : Host) {src : Token} (member : src ∈ sourceInputs axccNames args) :
    Gives axccNames (options axccNames args) (axccCompile host args src) ↔
      ReadBack axccNames args ((filtered args).filter (startsOption axccNames)) := by
  obtain ⟨notO, word⟩ := opens_of_no_dash known_axcc (mem_sourceInputs member)
  rw [← axccOption_eq]
  exact gives_iff (axccCompile_shaped host args src) (axAppCflags_plain host) notO word _

/-- axcc keeps the promise on every host exactly for these argument lists. -/
theorem axcc_routed_iff (followed : OutFollowed args) :
    (∀ host, Routed axccNames host args (axcc host args)) ↔ AxccRoutable args := by
  constructor
  · intro promise
    obtain ⟨out, named⟩ : ∃ out, axccOut args = some out := by
      unfold axccOut
      split
      · next present => exact Option.isSome_iff_exists.mp (followed present)
      · exact ⟨_, rfl⟩
    obtain ⟨ran, linked⟩ := axcc_ok willingHost (fun _ => rfl) named
    obtain ⟨compiles, objects, forwarded⟩ := promise willingHost
    have objects := objects _ linked
    rw [axccLink_objects, plain_iff_objects] at objects
    have forwarded := forwarded _ linked rfl
    rw [axccLink_forwarded rfl, axcc_forwarded_iff objects] at forwarded
    refine ⟨objects, forwarded, fun some => ?_⟩
    obtain ⟨src, member⟩ := List.exists_mem_of_ne_nil _ some
    have compiled : axccCompile willingHost args src ∈ (axcc willingHost args).compiles := by
      rw [ran, (files_iff.mpr objects).1]
      exact List.mem_map_of_mem member
    have gives := (compiles _ compiled).2
    rw [axccCompile_gives willingHost member] at gives
    exact (axcc_operands_iff known_axcc objects forwarded).mp gives
  · rintro ⟨plain, joined, supplied⟩ host
    obtain ⟨sources, objects⟩ := files_iff.mpr plain
    constructor
    · intro c compiled
      obtain ⟨src, source, rfl⟩ := axcc_compiles host args c compiled
      rw [sources] at source
      have some : sourceInputs axccNames args ≠ [] := List.ne_nil_of_mem source
      refine ⟨source, ?_⟩
      rw [axccCompile_gives host source]
      exact (axcc_operands_iff known_axcc plain joined).mpr (supplied some)
    · intro link linked
      obtain ⟨out, -, rfl⟩ := axcc_link host args link linked
      rw [axccLink_objects, sources, objects]
    · intro link linked wrapper
      obtain ⟨out, -, rfl⟩ := axcc_link host args link linked
      rw [axccLink_forwarded wrapper, axcc_forwarded_iff plain]
      exact joined

/-! ## axtcc -/

theorem axtccForwards_iff {out : Token} (file : notFile a = true) (notC : a ≠ text "-c") :
    axtccForwards out a = false ↔ Withheld out a := by
  have skipped : startsOption axccNames a = (startsWith "-I" a || startsWith "-D" a) := by
    simp [startsOption, axccNames]
  rw [notFile, Bool.and_eq_true, Bool.not_eq_true', Bool.not_eq_true'] at file
  rw [Withheld, skipped]
  by_cases isO : a = text "-o"
  · simp [axtccForwards, isO]
  · by_cases isOut : a = out
    · simp [axtccForwards, isOut]
    · cases dir : startsWith "-I" a <;> cases macroName : startsWith "-D" a <;>
        simp [axtccForwards, isO, isOut, file.1, file.2, dir, macroName, notC]

theorem startsOption_axcc (starts : startsOption axccNames a = true) :
    startsOption axtccNames a = true := by
  simp only [startsOption, axccNames, axtccNames, List.any_cons, List.any_nil, Bool.or_false] at *
  rw [← Bool.or_assoc, starts, Bool.true_or]

theorem axtccForwards_item {out : Token} (plain : PlainInputs axtccNames args)
    (noC : text "-c" ∉ args) (member : item ∈ items axtccNames args) (inside : a ∈ item.tokens)
    (file : item = .word a → isFile a = false) :
    axtccForwards out a = false ↔ Withheld out a := by
  apply axtccForwards_iff (notFile_of_plain plain member inside file)
  rintro rfl
  apply noC
  rw [← read_tokens (g := grammar axtccNames) args]
  exact List.mem_flatMap.mpr ⟨item, member, inside⟩

theorem remainingOf_setting (setting : isSetting names item = true) : remainingOf names item = [] := by
  cases item with
  | word a =>
    have starts : startsOption names a = true := setting
    rw [remainingOf, starts]
    rfl
  | pair => rfl
  | dangling => rfl

/-- What axtcc forwards of a word that is no setting. -/
theorem axtcc_forwards_word {out : Token} (plain : PlainInputs axtccNames args)
    (noC : text "-c" ∉ args) (member : .word a ∈ items axtccNames args)
    (other : out ∉ remainingOf axtccNames (.word a)) (starts : startsOption axtccNames a = false) :
    [a].filter (axtccForwards out) = remainingOf axtccNames (.word a) := by
  cases file : isFile a with
  | true =>
    have ends := file
    rw [isFile, Bool.and_eq_true, Bool.or_eq_true] at ends
    rcases ends.2 with ends | ends <;> simp [remainingOf, axtccForwards, file, ends]
  | false =>
    have proper := read_proper (g := grammar axtccNames) args _ member
    have kept : remainingOf axtccNames (.word a) = [a] := by simp [remainingOf, starts, file]
    rw [kept] at other ⊢
    have forwarded : ¬ Withheld out a := by
      rintro (rfl | rfl | skipped)
      · cases proper
      · exact other (List.mem_singleton.mpr rfl)
      · rw [startsOption_axcc skipped] at starts
        cases starts
    rw [← axtccForwards_item plain noC member (List.mem_singleton.mpr rfl) (fun _ => file)]
      at forwarded
    simpa using forwarded

/-- What axtcc forwards of one item. -/
theorem axtcc_forwardedOf {out : Token} (plain : PlainInputs axtccNames args)
    (noC : text "-c" ∉ args) (member : item ∈ items axtccNames args)
    (other : out ∉ remainingOf axtccNames item) :
    (remainingOf axtccNames item).Sublist (item.tokens.filter (axtccForwards out)) ∧
      (item.tokens.filter (axtccForwards out) = remainingOf axtccNames item ↔
        (isSetting axtccNames item = true → ∀ a ∈ item.tokens, Withheld out a)) := by
  cases setting : isSetting axtccNames item with
  | true =>
    rw [remainingOf_setting setting, List.filter_eq_nil_iff]
    have each : ∀ a ∈ item.tokens, (axtccForwards out a = false ↔ Withheld out a) := by
      refine fun a inside => axtccForwards_item plain noC member inside ?_
      rintro rfl
      rw [Bool.eq_false_iff]
      intro file
      rw [isSetting, isFile_not_option known_axtcc file] at setting
      cases setting
    refine ⟨List.nil_sublist _, fun none _ a inside => ?_, fun withheld a inside => ?_⟩
    · exact (each a inside).mp (Bool.eq_false_iff.mpr (none a inside))
    · exact Bool.eq_false_iff.mp ((each a inside).mpr (withheld rfl a inside))
  | false =>
    cases item with
    | word a =>
      have same := axtcc_forwards_word plain noC member other setting
      exact ⟨by rw [Item.tokens, same], by simp [Item.tokens, same]⟩
    | pair => cases setting
    | dangling => cases setting

theorem axtcc_forwarded_iff {out : Token} (plain : PlainInputs axtccNames args)
    (noC : text "-c" ∉ args) :
    args.filter (axtccForwards out) = remaining axtccNames args ↔
      out ∉ remaining axtccNames args ∧ ∀ item ∈ items axtccNames args,
        isSetting axtccNames item = true → ∀ a ∈ item.tokens, Withheld out a := by
  have each : out ∉ remaining axtccNames args → ∀ item ∈ items axtccNames args,
      out ∉ remainingOf axtccNames item :=
    fun other item member inside => other (List.mem_flatMap.mpr ⟨item, member, inside⟩)
  constructor
  · intro same
    have other : out ∉ remaining axtccNames args := by
      intro inside
      rw [← same, List.mem_filter] at inside
      simp [axtccForwards] at inside
    refine ⟨other, fun item member => ?_⟩
    rw [filter_items axtccNames, remaining, flatMap_eq_iff_of_sublist
      (fun item member => (axtcc_forwardedOf plain noC member (each other item member)).1)] at same
    exact (axtcc_forwardedOf plain noC member (each other item member)).2.mp (same item member)
  · rintro ⟨other, withheld⟩
    rw [filter_items axtccNames, remaining, flatMap_eq_iff_of_sublist
      (fun item member => (axtcc_forwardedOf plain noC member (each other item member)).1)]
    exact fun item member => (axtcc_forwardedOf plain noC member (each other item member)).2.mpr
      (withheld item member)

theorem axtccLink_objects (host : Host) (args objs : List Token) (out : Token) :
    (axtccLink host args objs out).objects = objs := by
  unfold axtccLink
  dsimp only
  split <;> rfl

theorem axtccLink_forwarded {host : Host} {objs : List Token} {out : Token}
    (wrapper : (axtccLink host args objs out).wrapper = true) :
    (axtccLink host args objs out).forwarded = args.filter (axtccForwards out) := by
  unfold axtccLink at wrapper ⊢
  dsimp only at wrapper ⊢
  split at wrapper
  · next found => rw [if_pos found]
  · cases wrapper

/-- What axtcc passes on to the compiles of one item. -/
def passedOf (names : List String) : Item Token → List (Item Token)
  | .word a => if startsOption names a then [.word a] else []
  | .pair o a =>
    if o = text "-o" then (if startsOption names a then [.word a] else []) else [.pair o a]
  | .dangling o => if o = text "-o" then [] else [.dangling o]

theorem passedOf_tokens (known : Known names) (joined : Joined names args)
    (member : item ∈ items names args) :
    item.tokens.filter (startsOption names) = (passedOf names item).flatMap Item.tokens := by
  have outside : startsOption names (text "-o") = false := known.notO
  cases item with
  | word a => cases starts : startsOption names a <;> simp [passedOf, starts, Item.tokens]
  | pair o a =>
    by_cases isO : o = text "-o"
    · cases starts : startsOption names a <;> simp [passedOf, isO, starts, outside, Item.tokens]
    · have starts := option_of_item member ⟨a, .inl rfl⟩ isO
      have operand := joined o a member isO
      simp [passedOf, isO, starts, operand, Item.tokens]
  | dangling o =>
    by_cases isO : o = text "-o"
    · simp [passedOf, isO, outside, Item.tokens]
    · have starts := option_of_item member ⟨o, .inr rfl⟩ isO
      simp [passedOf, isO, starts, Item.tokens]

theorem passedOf_order (names : List String) (args : List Token) :
    (options names args).Sublist ((items names args).flatMap (passedOf names)) := by
  have alone : options names args =
      (items names args).flatMap (fun item => if isOption names item then [item] else []) := by
    rw [options, ← flatMap_filter]
    exact (List.flatMap_singleton' _).symm
  rw [alone]
  refine List.Sublist.flatMap_right _ (fun item _ => ?_)
  cases item with
  | word a => exact List.Sublist.refl _
  | pair o a => by_cases isO : o = text "-o" <;> simp [isOption, passedOf, isO]
  | dangling o => by_cases isO : o = text "-o" <;> simp [isOption, passedOf, isO]

theorem passedOf_proper (known : Known names) (plain : ¬ OptionOutput names args)
    (member : item ∈ items names args) :
    ∀ passed ∈ passedOf names item, (grammar names).Proper passed := by
  have proper := read_proper (g := grammar names) args item member
  intro passed inside
  cases item with
  | word a =>
    rw [passedOf] at inside
    split at inside
    · rwa [List.mem_singleton.mp inside]
    · cases inside
  | pair o a =>
    rw [passedOf] at inside
    split at inside
    · next isO =>
      split at inside
      · next starts =>
        rw [List.mem_singleton.mp inside]
        have notO := ne_of_startsOption known starts
        simp only [Grammar.Proper, grammar, notO, decide_false, Bool.false_or, List.any_eq_false,
          decide_eq_true_eq]
        rintro name known rfl
        exact plain ⟨name, known, isO ▸ member⟩
      · cases inside
    · rwa [List.mem_singleton.mp inside]
  | dangling o =>
    rw [passedOf] at inside
    split at inside
    · cases inside
    · rwa [List.mem_singleton.mp inside]

/-- The options reach the compiles of axtcc exactly when no operand is a token
that does not look like an option, each option has its operand, and an output
named like an option does no harm. -/
theorem axtcc_operands_iff (known : Known names) :
    ReadBack names args (args.filter (startsOption names)) ↔
      Joined names args ∧ Supplied names args ∧
        (OptionOutput names args → ReadBack names args (args.filter (startsOption names))) := by
  have within : ∀ a ∈ args.filter (startsOption names), startsOption names a = true :=
    fun a inside => (List.mem_filter.mp inside).2
  constructor
  · exact fun back => ⟨back.joined within, back.supplied known within, fun _ => back⟩
  · rintro ⟨joined, supplied, outputs⟩
    by_cases named : OptionOutput names args
    · exact outputs named
    · have same : args.filter (startsOption names) =
          ((items names args).flatMap (passedOf names)).flatMap Item.tokens := by
        rw [filter_items names, List.flatMap_assoc]
        exact List.flatMap_congr (fun item member => passedOf_tokens known joined member)
      refine readBack_of_items same ?_ ?_ (passedOf_order names args)
      · intro passed inside
        obtain ⟨item, member, inside⟩ := List.mem_flatMap.mp inside
        exact passedOf_proper known named member passed inside
      · intro o inside
        obtain ⟨item, member, inside⟩ := List.mem_flatMap.mp inside
        cases item with
        | word a => rw [passedOf] at inside; split at inside <;> simp at inside
        | pair option a =>
          rw [passedOf] at inside
          split at inside
          · split at inside <;> simp at inside
          · simp at inside
        | dangling option =>
          rw [passedOf] at inside
          split at inside
          · cases inside
          · next notO =>
            cases List.mem_singleton.mp inside
            exact notO (supplied o member)

theorem axtccCompile_gives (host : Host) {src : Token}
    (member : src ∈ sourceInputs axtccNames args) {c : Compile}
    (made : c = gccCompile host args src ∨ ∃ tcc, c = tccCompile host tcc args src) :
    Gives axtccNames (options axtccNames args) c ↔
      ReadBack axtccNames args (args.filter (startsOption axtccNames)) := by
  obtain ⟨notO, word⟩ := opens_of_no_dash known_axtcc (mem_sourceInputs member)
  rw [← axtccOption_eq]
  rcases made with rfl | ⟨tcc, rfl⟩
  · exact gives_iff (gccCompile_shaped host args src) (gccBase_plain host) notO word _
  · exact gives_iff (tccCompile_shaped host tcc args src) (tccFlags_plain host) notO word _

/-- axtcc keeps the promise on every host exactly for these argument lists. -/
theorem axtcc_routed_iff (noC : text "-c" ∉ args) :
    (∀ host, Routed axtccNames host args (axtcc host args)) ↔ AxtccRoutable args := by
  constructor
  · intro promise
    obtain ⟨ran, linked⟩ := axtcc_ok willingHost args (fun _ => rfl) rfl
    obtain ⟨compiles, objects, forwarded⟩ := promise willingHost
    have objects := objects _ linked
    rw [axtccLink_objects, plain_iff_objects] at objects
    have forwarded := forwarded _ linked rfl
    rw [axtccLink_forwarded rfl, axtcc_forwarded_iff objects noC] at forwarded
    have back : sourceInputs axtccNames args ≠ [] →
        ReadBack axtccNames args (args.filter (startsOption axtccNames)) := by
      intro some
      obtain ⟨src, member⟩ := List.exists_mem_of_ne_nil _ some
      have compiled : gccCompile willingHost args src ∈ (axtcc willingHost args).compiles := by
        rw [ran, (files_iff.mpr objects).1]
        exact List.mem_map_of_mem member
      exact (axtccCompile_gives willingHost member (.inl rfl)).mp (compiles _ compiled).2
    have reads := fun some => (axtcc_operands_iff known_axtcc).mp (back some)
    exact ⟨objects, forwarded.1, forwarded.2, fun some => (reads some).1,
      fun some => (reads some).2.1, fun some => (reads some).2.2⟩
  · rintro ⟨plain, others, settings, joined, supplied, outputs⟩ host
    obtain ⟨sources, objects⟩ := files_iff.mpr plain
    constructor
    · intro c compiled
      obtain ⟨src, source, made⟩ := axtcc_compiles host args c compiled
      rw [sources] at source
      have some : sourceInputs axtccNames args ≠ [] := List.ne_nil_of_mem source
      have named : c.source = src := by rcases made with rfl | ⟨tcc, rfl⟩ <;> rfl
      refine ⟨named ▸ source, ?_⟩
      rw [axtccCompile_gives host source made, axtcc_operands_iff known_axtcc]
      exact ⟨joined some, supplied some, outputs some⟩
    · intro link linked
      rw [axtcc_link host args link linked, axtccLink_objects, sources, objects]
    · intro link linked wrapper
      obtain rfl := axtcc_link host args link linked
      rw [axtccLink_forwarded wrapper, axtcc_forwarded_iff plain noC]
      exact ⟨others, settings⟩

theorem no_c_of_link (mode : axtccMode args = .link) : text "-c" ∉ args := by
  unfold axtccMode at mode
  split at mode
  · cases mode
  · split at mode
    · cases mode
    · split at mode
      · cases mode
      · split at mode
        · cases mode
        · assumption

/-- In link mode, with `-o` absent or followed by a value, each driver routes
every token as promised exactly when the list is routable for it. -/
theorem drivers_route_iff (args : List Token) (followed : OutFollowed args) :
    (axccMode args = .link →
      ((∀ host, Routed axccNames host args (axcc host args)) ↔ AxccRoutable args)) ∧
    (axtccMode args = .link →
      ((∀ host, Routed axtccNames host args (axtcc host args)) ↔ AxtccRoutable args)) :=
  ⟨fun _ => axcc_routed_iff followed, fun mode => axtcc_routed_iff (no_c_of_link mode)⟩

/-- `-o x a.c -Idir -lm` -/
def joinedArgs : List Token := [text "-o", text "x", text "a.c", text "-Idir", text "-lm"]

theorem drivers_route_iff_joined :
    (∀ host, Routed axccNames host joinedArgs (axcc host joinedArgs)) ∧
      ∀ host, Routed axtccNames host joinedArgs (axtcc host joinedArgs) := by
  obtain ⟨axccSide, axtccSide⟩ := drivers_route_iff joinedArgs (by decide)
  have read (names : List String) (same : items names joinedArgs = [.pair (text "-o") (text "x"),
      .word (text "a.c"), .word (text "-Idir"), .word (text "-lm")]) :
      Joined names joinedArgs ∧ Supplied names joinedArgs := by
    constructor
    · intro o a member notO
      rw [same] at member
      simp at member
      exact absurd member.1 notO
    · intro o member
      rw [same] at member
      simp at member
  obtain ⟨joined, supplied⟩ := read axccNames (by decide)
  obtain ⟨joined', supplied'⟩ := read axtccNames (by decide)
  refine ⟨(axccSide (by decide)).mpr ⟨by decide, joined, fun _ => supplied⟩,
    (axtccSide (by decide)).mpr ⟨by decide, by decide, by decide, fun _ => joined',
      fun _ => supplied', fun _ named => absurd named (by decide)⟩⟩

/-- `-I dir a.c` -/
def splitArgs : List Token := [text "-I", text "dir", text "a.c"]

/-- Both drivers give the compile `-I a.c`, and the linker `dir`. -/
theorem split_option_misrouted :
    axccMode splitArgs = .link ∧ axtccMode splitArgs = .link ∧ OutFollowed splitArgs ∧
      ¬ Routed axccNames willingHost splitArgs (axcc willingHost splitArgs) ∧
      ¬ Routed axtccNames willingHost splitArgs (axtcc willingHost splitArgs) := by
  refine ⟨by decide, by decide, by decide, fun routed => ?_, fun routed => ?_⟩
  · have forwarded := routed.forwarded _ rfl rfl
    exact absurd forwarded (by decide)
  · have forwarded := routed.forwarded _ rfl rfl
    exact absurd forwarded (by decide)

end AxiomeToolchain.Guarantees.DriverRouting
