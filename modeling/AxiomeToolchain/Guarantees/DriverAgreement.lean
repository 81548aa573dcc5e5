import AxiomeToolchain.Guarantees.DriverRouting

/-!
# When the two drivers link alike

axcc drops the token after every `-o`; axtcc drops the tokens that equal the
output name. Both runs give the temporary directory the same name.
-/

set_option autoImplicit false

namespace AxiomeToolchain.Guarantees.DriverAgreement
open AxiomeToolchain.Library.OptionList
open AxiomeToolchain.Library.Parts
open AxiomeToolchain.Source.Driver
open AxiomeToolchain.Source.DriverReading
open AxiomeToolchain.Source.DriverRuns
open AxiomeToolchain.Guarantees.DriverRouting

/-- The drivers are installed together; they may find different compilers. -/
structure SameInstallation (axccHost axtccHost : Host) : Prop where
  sdk : axccHost.sdk = axtccHost.sdk
  axld : axccHost.axld = axtccHost.axld
  tmpdir : axccHost.tmpdir = axtccHost.tmpdir

/-- axld exists and is executable. -/
def AxldReady (host : Host) : Prop := host.axldExists = true ∧ host.axldExecutable = true

/-- The tokens that neither driver forwards, whatever the output name. -/
def neverForwarded (a : Token) : Bool :=
  endsWith ".c" a || endsWith ".o" a || startsWith "-I" a || startsWith "-D" a

/-- Reading `-o` as the only option with an operand: the first output name is not
the empty token, no other token repeats it, and each later output name is one
that axtcc drops as well. -/
structure LinkedAlike (args : List Token) : Prop where
  named : axccOut args ≠ some []
  words : ∀ a, .word a ∈ items [] args → a = axtccOut args → neverForwarded a = true
  outputs : ∀ o a, .pair o a ∈ items [] args →
    a = text "-o" ∨ a = axtccOut args ∨ neverForwarded a = true

variable {args : List Token} {item : Item Token} {a out : Token}

/-! ## What each driver forwards of an item -/

/-- axcc, of one item. -/
def axccForwardedOf (item : Item Token) : List Token :=
  (keptOf item).filter (fun a => !startsOption axccNames a)

theorem axcc_forwarded (args : List Token) :
    (filtered args).filter (fun a => !startsOption axccNames a) =
      (items [] args).flatMap axccForwardedOf := by
  rw [filtered_eq [], List.filter_flatMap]
  rfl

theorem opens_output : (grammar []).opens a = true ↔ a = text "-o" := by
  simp [grammar]

theorem item_word (member : .word a ∈ items [] args) : a ≠ text "-o" := by
  have proper := read_proper (g := grammar []) args _ member
  rw [Grammar.Proper, Bool.eq_false_iff] at proper
  exact fun isO => proper (opens_output.mpr isO)

theorem item_pair {o : Token} (member : .pair o a ∈ items [] args) : o = text "-o" :=
  opens_output.mp (read_proper (g := grammar []) args _ member).1

theorem item_dangling {o : Token} (member : .dangling o ∈ items [] args) : o = text "-o" :=
  opens_output.mp (read_proper (g := grammar []) args _ member)

theorem kept_iff (a : Token) :
    (notFile a && !startsOption axccNames a) = !neverForwarded a := by
  simp [notFile, neverForwarded, startsOption, axccNames, Bool.and_assoc]

theorem axccForwardedOf_word (a : Token) :
    axccForwardedOf (.word a) = [a].filter (fun a => !neverForwarded a) := by
  rw [axccForwardedOf, keptOf, List.filter_filter]
  refine List.filter_congr (fun b _ => ?_)
  rw [Bool.and_comm]
  exact kept_iff b

theorem axtccForwards_eq (out : Token) (notO : a ≠ text "-o") (notC : a ≠ text "-c") :
    axtccForwards out a = (a ≠ out && !neverForwarded a) := by
  have files : (a = text "-o" ∨ a = out ∨ endsWith ".c" a = true ∨ endsWith ".o" a = true) ↔
      (a = out ∨ (endsWith ".c" a || endsWith ".o" a) = true) := by
    simp only [notO, false_or, Bool.or_eq_true]
  rw [axtccForwards, if_congr files rfl rfl, if_neg notC, neverForwarded, Bool.or_assoc]
  by_cases isOut : a = out
  · simp [isOut]
  · cases file : endsWith ".c" a || endsWith ".o" a <;> simp [isOut]

theorem mem_of_item (member : item ∈ items [] args) (inside : a ∈ item.tokens) : a ∈ args := by
  rw [← read_tokens (g := grammar []) args]
  exact List.mem_flatMap.mpr ⟨item, member, inside⟩

theorem forwards_word (noC : text "-c" ∉ args) (member : .word a ∈ items [] args) :
    [a].filter (axtccForwards out) =
      if a = out then [] else axccForwardedOf (.word a) := by
  have notC : a ≠ text "-c" := by
    rintro rfl
    exact noC (mem_of_item member (List.mem_singleton.mpr rfl))
  have test := axtccForwards_eq out (item_word member) notC
  rw [axccForwardedOf_word]
  by_cases isOut : a = out
  · simp [isOut, axtccForwards]
  · simp [test, isOut, List.filter_cons]

theorem forwards_output (noC : text "-c" ∉ args) {o : Token}
    (member : .pair o a ∈ items [] args) :
    [o, a].filter (axtccForwards out) = [] ↔
      a = text "-o" ∨ a = out ∨ neverForwarded a = true := by
  obtain rfl := item_pair member
  have dropO : axtccForwards out (text "-o") = false := by simp [axtccForwards]
  have notC : a ≠ text "-c" := by
    rintro rfl
    exact noC (mem_of_item member (by simp [Item.tokens]))
  by_cases isO : a = text "-o"
  · simp [isO, dropO]
  · have test := axtccForwards_eq out isO notC
    cases never : neverForwarded a <;> simp [dropO, test, isO, never]

theorem forwards_dangling {o : Token} (member : .dangling o ∈ items [] args) :
    [o].filter (axtccForwards out) = [] := by
  obtain rfl := item_dangling member
  simp [axtccForwards]

theorem axccForwardedOf_output {o : Token} (member : .pair o a ∈ items [] args) :
    axccForwardedOf (.pair o a) = [] := by
  obtain rfl := item_pair member
  rfl

theorem axccForwardedOf_dangling {o : Token} (member : .dangling o ∈ items [] args) :
    axccForwardedOf (.dangling o) = [] := by
  obtain rfl := item_dangling member
  rfl

/-! ## The two lists -/

/-- No word that axcc forwards is the output name. -/
def WordsApart (args : List Token) (out : Token) : Prop :=
  ∀ a, .word a ∈ items [] args → a = out → neverForwarded a = true

/-- Word by word the two agree, once no word repeats the output name. -/
theorem forwards_words (noC : text "-c" ∉ args) (apart : WordsApart args out)
    (member : .word a ∈ items [] args) :
    [a].filter (axtccForwards out) = axccForwardedOf (.word a) := by
  rw [forwards_word noC member]
  by_cases isOut : a = out
  · rw [if_pos isOut, axccForwardedOf_word]
    simp [apart a member isOut]
  · rw [if_neg isOut]

/-- axtcc never forwards the output name, so where the lists agree axcc does not. -/
theorem wordsApart_of_same
    (same : args.filter (axtccForwards out) = (items [] args).flatMap axccForwardedOf) :
    WordsApart args out := by
  intro a member isOut
  by_contra forwarded
  have kept : a ∈ axccForwardedOf (.word a) := by
    rw [axccForwardedOf_word]
    simpa using forwarded
  have shared : a ∈ args.filter (axtccForwards out) := by
    rw [same]
    exact List.mem_flatMap.mpr ⟨_, member, kept⟩
  have passes := (List.mem_filter.mp shared).2
  simp [axtccForwards, isOut] at passes

/-- What axcc forwards of an item, axtcc forwards too. -/
theorem forwards_sublist (noC : text "-c" ∉ args) (apart : WordsApart args out)
    (item : Item Token) (member : item ∈ items [] args) :
    (axccForwardedOf item).Sublist (item.tokens.filter (axtccForwards out)) := by
  cases item with
  | word a => rw [Item.tokens, forwards_words noC apart member]
  | pair o a =>
    rw [axccForwardedOf_output member]
    exact List.nil_sublist _
  | dangling o =>
    rw [axccForwardedOf_dangling member]
    exact List.nil_sublist _

theorem forwarded_alike_iff (noC : text "-c" ∉ args) :
    args.filter (axtccForwards out) = (items [] args).flatMap axccForwardedOf ↔
      WordsApart args out ∧ ∀ o a, .pair o a ∈ items [] args →
        a = text "-o" ∨ a = out ∨ neverForwarded a = true := by
  have parts : WordsApart args out →
      (args.filter (axtccForwards out) = (items [] args).flatMap axccForwardedOf ↔
        ∀ item ∈ items [] args, item.tokens.filter (axtccForwards out) = axccForwardedOf item) := by
    intro apart
    rw [filter_items []]
    exact flatMap_eq_iff_of_sublist (forwards_sublist noC apart)
  constructor
  · intro same
    have apart := wordsApart_of_same same
    refine ⟨apart, fun o a member => ?_⟩
    have each := (parts apart).mp same _ member
    rw [axccForwardedOf_output member] at each
    exact (forwards_output noC member).mp each
  · intro ⟨apart, outputs⟩
    apply (parts apart).mpr
    intro item member
    cases item with
    | word a => exact forwards_words noC apart member
    | pair o a =>
      rw [axccForwardedOf_output member]
      exact (forwards_output noC member).mpr (outputs o a member)
    | dangling o =>
      rw [axccForwardedOf_dangling member]
      exact forwards_dangling member

/-! ## The two commands -/

theorem axtccOut_of_axccOut (named : axccOut args = some out) :
    axtccOut args = if out = [] then text "a.out" else out := by
  rw [axccOut] at named
  rw [axtccOut]
  split at named
  · next present =>
    rw [if_pos present, named]
    cases out <;> rfl
  · next absent =>
    rw [if_neg absent, ← Option.some.inj named]
    rfl

theorem out_same_iff (named : axccOut args = some out) :
    out = axtccOut args ↔ axccOut args ≠ some [] := by
  rw [axtccOut_of_axccOut named, named]
  cases out with
  | nil => exact iff_of_false (by decide) (not_not_intro rfl)
  | cons ch rest => simp

theorem axccLink_argv {host : Host} (ready : AxldReady host) (args objs : List Token) (out : Token) :
    (axccLink host args objs out).argv =
      [host.axld, text "-o", out] ++ (objs ++ [under host.sdk "lib/crt0.o",
        under host.sdk "lib/libc.sl"] ++ (items [] args).flatMap axccForwardedOf) := by
  have wrapper : (axccLink host args objs out).wrapper = true := by rw [axccLink, if_pos ready.1]
  have forwarded := axccLink_forwarded wrapper
  rw [axcc_forwarded] at forwarded
  rw [Link.argv, forwarded, axccLink, if_pos ready.1]
  simp

theorem axtccLink_argv {host : Host} (ready : AxldReady host) (libraries : text "-nostdlib" ∉ args)
    (objs : List Token) (out : Token) :
    (axtccLink host args objs out).argv =
      [host.axld, text "-o", out] ++ (objs ++ [under host.sdk "lib/crt0.o",
        under host.sdk "lib/libc.sl"] ++ args.filter (axtccForwards out)) := by
  have found : (host.axldExists && host.axldExecutable) = true := by rw [ready.1, ready.2]; rfl
  simp [Link.argv, axtccLink, found, libraries]

/-- When both drivers reach the link, they pass axld the same argument list
exactly for these lists. -/
theorem drivers_link_alike_iff {axccHost axtccHost : Host} {axccRun axtccRun : Link}
    (same : SameInstallation axccHost axtccHost) (axccReady : AxldReady axccHost)
    (axtccReady : AxldReady axtccHost) (axtccLinks : axtccMode args = .link)
    (libraries : text "-nostdlib" ∉ args) (axccRan : (axcc axccHost args).link = some axccRun)
    (axtccRan : (axtcc axtccHost args).link = some axtccRun) :
    axccRun.argv = axtccRun.argv ↔ LinkedAlike args := by
  obtain ⟨out, named, rfl⟩ := axcc_link axccHost args axccRun axccRan
  obtain rfl := axtcc_link axtccHost args axtccRun axtccRan
  have objects : objectPath axccHost = objectPath axtccHost := by
    funext src
    rw [objectPath, objectPath, same.tmpdir]
  rw [axccLink_argv axccReady, axtccLink_argv axtccReady libraries, same.sdk, same.axld, objects]
  have commands : ∀ f g : List Token, ∀ objs libs : List Token,
      [axtccHost.axld, text "-o", out] ++ (objs ++ libs ++ f) =
          [axtccHost.axld, text "-o", axtccOut args] ++ (objs ++ libs ++ g) ↔
        out = axtccOut args ∧ g = f := by
    intro f g objs libs
    simp [eq_comm]
  rw [commands, out_same_iff named, forwarded_alike_iff (no_c_of_link axtccLinks)]
  constructor
  · intro ⟨nonempty, words, outputs⟩
    exact ⟨nonempty, words, outputs⟩
  · intro ⟨nonempty, words, outputs⟩
    exact ⟨nonempty, words, outputs⟩

/-- `-o app x.o -lm` -/
def mathArgs : List Token := [text "-o", text "app", text "x.o", text "-lm"]

theorem drivers_link_alike_iff_math :
    (axcc willingHost mathArgs).link.map Link.argv =
      (axtcc willingHost mathArgs).link.map Link.argv := by
  have alike : LinkedAlike mathArgs := by
    have read : items [] mathArgs = [.pair (text "-o") (text "app"), .word (text "x.o"),
      .word (text "-lm")] := by decide
    refine ⟨by decide, ?_, ?_⟩
    · intro a member isOut
      rw [read, isOut] at member
      exact absurd member (by decide)
    · intro o a member
      rw [read] at member
      have output : o = text "-o" ∧ a = text "app" := by simpa using member
      exact .inr (.inl output.2)
  have named : axccOut mathArgs = some (text "app") := by decide
  have ran := (axcc_ok willingHost (fun _ => rfl) named).2
  have ran' := (axtcc_ok willingHost mathArgs (fun _ => rfl) rfl).2
  have agree := (drivers_link_alike_iff ⟨rfl, rfl, rfl⟩ ⟨rfl, rfl⟩ ⟨rfl, rfl⟩ (by decide)
    (by decide) ran ran').mpr alike
  rw [ran, ran']
  exact congrArg some agree

/-- `-o app x.o -L app` -/
def libraryDirArgs : List Token :=
  [text "-o", text "app", text "x.o", text "-L", text "app"]

/-- axtcc loses the directory of `-L`. -/
theorem library_dir_dropped :
    axccMode libraryDirArgs = .link ∧ axtccMode libraryDirArgs = .link ∧
      text "-nostdlib" ∉ libraryDirArgs ∧ OutFollowed libraryDirArgs ∧ AxldReady willingHost ∧
      (axcc willingHost libraryDirArgs).link.map Link.argv =
        some [text "", text "-o", text "app", text "x.o", text "/lib/crt0.o", text "/lib/libc.sl",
          text "-L", text "app"] ∧
      (axtcc willingHost libraryDirArgs).link.map Link.argv =
        some [text "", text "-o", text "app", text "x.o", text "/lib/crt0.o", text "/lib/libc.sl",
          text "-L"] := by
  refine ⟨by decide, by decide, by decide, by decide, ⟨rfl, rfl⟩, by decide, by decide⟩

end AxiomeToolchain.Guarantees.DriverAgreement
