import Mathlib

/-!
# Reading an option list

A list of tokens is read from left to right. Some tokens open an option whose
operand is the next token; the others stand for themselves. An option that meets
the end, or a token it does not accept, stays without an operand.
-/

set_option autoImplicit false

namespace AxiomeToolchain.Library.OptionList

structure Grammar (α : Type) where
  opens : α → Bool
  accepts : α → α → Bool

inductive Item (α : Type) where
  | word (token : α)
  | pair (option operand : α)
  | dangling (option : α)
  deriving DecidableEq, Repr

variable {α : Type} (g : Grammar α)

def Item.tokens : Item α → List α
  | .word token => [token]
  | .pair option operand => [option, operand]
  | .dangling option => [option]

/-- The word, or the option. -/
def Item.first : Item α → α
  | .word token => token
  | .pair option _ => option
  | .dangling option => option

/-- The items that one token completes, and the option that it leaves open. -/
def Grammar.start (a : α) : List (Item α) × Option α :=
  if g.opens a then ([], some a) else ([.word a], none)

def Grammar.step : Option α → α → List (Item α) × Option α
  | none, a => g.start a
  | some o, a =>
    if g.accepts o a then ([.pair o a], none) else (.dangling o :: (g.start a).1, (g.start a).2)

/-- The items completed by a list. -/
def Grammar.closed : Option α → List α → List (Item α)
  | _, [] => []
  | o, a :: rest => (g.step o a).1 ++ Grammar.closed (g.step o a).2 rest

/-- The option left open by a list. -/
def Grammar.pending : Option α → List α → Option α
  | o, [] => o
  | o, a :: rest => Grammar.pending (g.step o a).2 rest

def Grammar.readFrom (o : Option α) (l : List α) : List (Item α) :=
  g.closed o l ++ (g.pending o l).toList.map .dangling

def Grammar.read (l : List α) : List (Item α) := g.readFrom none l

/-- No option is left open. -/
def Grammar.Complete (l : List α) : Prop := g.pending none l = none

instance [DecidableEq α] (l : List α) : Decidable (g.Complete l) :=
  inferInstanceAs (Decidable (g.pending none l = none))

/-- An item as a reading can hold it. -/
def Grammar.Proper : Item α → Prop
  | .word token => g.opens token = false
  | .pair option operand => g.opens option = true ∧ g.accepts option operand = true
  | .dangling option => g.opens option = true

variable {g} {o : Option α} {l r : List α} {a : α}

theorem closed_append (o : Option α) (l r : List α) :
    g.closed o (l ++ r) = g.closed o l ++ g.closed (g.pending o l) r := by
  induction l generalizing o with
  | nil => rfl
  | cons a rest ih =>
    rw [List.cons_append, Grammar.closed, ih, Grammar.closed, Grammar.pending, List.append_assoc]

theorem pending_append (o : Option α) (l r : List α) :
    g.pending o (l ++ r) = g.pending (g.pending o l) r := by
  induction l generalizing o with
  | nil => rfl
  | cons a rest ih => rw [List.cons_append, Grammar.pending, ih, Grammar.pending]

theorem readFrom_append (o : Option α) (l r : List α) :
    g.readFrom o (l ++ r) = g.closed o l ++ g.readFrom (g.pending o l) r := by
  rw [Grammar.readFrom, closed_append, pending_append, Grammar.readFrom, List.append_assoc]

theorem readFrom_cons (o : Option α) (a : α) (rest : List α) :
    g.readFrom o (a :: rest) = (g.step o a).1 ++ g.readFrom (g.step o a).2 rest := by
  rw [Grammar.readFrom, Grammar.closed, Grammar.pending, Grammar.readFrom, List.append_assoc]

theorem Grammar.Complete.read_eq (complete : g.Complete l) : g.read l = g.closed none l := by
  rw [Grammar.read, Grammar.readFrom, complete]
  exact List.append_nil _

theorem Grammar.Complete.read_append (complete : g.Complete l) (r : List α) :
    g.read (l ++ r) = g.read l ++ g.read r := by
  rw [complete.read_eq, Grammar.read, readFrom_append, complete, Grammar.read]

theorem start_tokens (a : α) :
    (g.start a).1.flatMap Item.tokens ++ (g.start a).2.toList = [a] := by
  unfold Grammar.start
  split <;> rfl

theorem step_tokens (o : Option α) (a : α) :
    (g.step o a).1.flatMap Item.tokens ++ (g.step o a).2.toList = o.toList ++ [a] := by
  cases o with
  | none => exact start_tokens a
  | some o =>
    rw [Grammar.step]
    split
    · rfl
    · rw [List.flatMap_cons, List.append_assoc, start_tokens]
      rfl

/-- Nothing is lost or moved. -/
theorem readFrom_tokens (o : Option α) (l : List α) :
    (g.readFrom o l).flatMap Item.tokens = o.toList ++ l := by
  induction l generalizing o with
  | nil => cases o <;> rfl
  | cons a rest ih =>
    rw [readFrom_cons, List.flatMap_append, ih, ← List.append_assoc, step_tokens,
      List.append_assoc, List.singleton_append]

theorem read_tokens (l : List α) : (g.read l).flatMap Item.tokens = l := readFrom_tokens none l

theorem mem_read_first {item : Item α} (member : item ∈ g.read l) : item.first ∈ l := by
  rw [← read_tokens (g := g) l, List.mem_flatMap]
  refine ⟨item, member, ?_⟩
  cases item <;> exact List.mem_cons_self

theorem start_proper (a : α) :
    (∀ item ∈ (g.start a).1, g.Proper item) ∧ ∀ o ∈ (g.start a).2, g.opens o = true := by
  unfold Grammar.start
  split
  · next opening => simpa using opening
  · next plain => simpa [Grammar.Proper] using plain

theorem step_proper (opening : ∀ option ∈ o, g.opens option = true) (a : α) :
    (∀ item ∈ (g.step o a).1, g.Proper item) ∧ ∀ option ∈ (g.step o a).2, g.opens option = true := by
  cases o with
  | none => exact start_proper a
  | some o =>
    have opens : g.opens o = true := opening o rfl
    rw [Grammar.step]
    split
    · next accepted => exact ⟨by simpa [Grammar.Proper] using ⟨opens, accepted⟩, by simp⟩
    · obtain ⟨items, left⟩ := start_proper (g := g) a
      refine ⟨?_, left⟩
      rw [List.forall_mem_cons]
      exact ⟨opens, items⟩

theorem readFrom_proper (opening : ∀ option ∈ o, g.opens option = true) (l : List α) :
    ∀ item ∈ g.readFrom o l, g.Proper item := by
  induction l generalizing o with
  | nil =>
    cases o with
    | none => exact fun item none => nomatch none
    | some o =>
      intro item member
      rw [List.mem_singleton.mp member]
      exact opening o rfl
  | cons a rest ih =>
    obtain ⟨items, left⟩ := step_proper opening a
    intro item member
    rw [readFrom_cons, List.mem_append] at member
    rcases member with here | later
    · exact items item here
    · exact ih left item later

theorem read_proper (l : List α) : ∀ item ∈ g.read l, g.Proper item :=
  readFrom_proper (by simp) l

/-- A list without options is complete and read as its words. -/
theorem read_words (plain : ∀ a ∈ l, g.opens a = false) :
    g.Complete l ∧ g.read l = l.map .word := by
  have words : g.closed none l = l.map .word ∧ g.pending none l = none := by
    induction l with
    | nil => exact ⟨rfl, rfl⟩
    | cons a rest ih =>
      obtain ⟨first, others⟩ := List.forall_mem_cons.mp plain
      have once : g.step none a = ([.word a], none) := by
        rw [Grammar.step, Grammar.start, first]
        rfl
      obtain ⟨items, left⟩ := ih others
      rw [Grammar.closed, Grammar.pending, once, items, left]
      exact ⟨rfl, rfl⟩
  have complete : g.Complete l := words.2
  exact ⟨complete, complete.read_eq.trans words.1⟩

theorem read_item (item : Item α) (proper : g.Proper item) (closed : ∀ o, item ≠ .dangling o) :
    g.Complete item.tokens ∧ g.read item.tokens = [item] := by
  cases item with
  | word token =>
    apply read_words (l := [token])
    simpa [Grammar.Proper] using proper
  | pair option operand =>
    obtain ⟨opens, accepted⟩ := proper
    have first : g.step none option = ([], some option) := by
      rw [Grammar.step, Grammar.start, opens]
      rfl
    have second : g.step (some option) operand = ([.pair option operand], none) := by
      rw [Grammar.step, accepted]
      rfl
    have complete : g.Complete [option, operand] := by
      rw [Grammar.Complete, Grammar.pending, first, Grammar.pending, second]
      rfl
    refine ⟨complete, ?_⟩
    rw [Item.tokens, complete.read_eq, Grammar.closed, first, Grammar.closed, second]
    rfl
  | dangling option => exact absurd rfl (closed option)

/-- Items whose options have their operands are read back from their tokens. -/
theorem read_items (items : List (Item α)) (proper : ∀ item ∈ items, g.Proper item)
    (operands : ∀ o, .dangling o ∉ items) :
    g.Complete (items.flatMap Item.tokens) ∧ g.read (items.flatMap Item.tokens) = items := by
  induction items with
  | nil => exact ⟨rfl, rfl⟩
  | cons item rest ih =>
    obtain ⟨first, others⟩ := List.forall_mem_cons.mp proper
    obtain ⟨complete, items⟩ := ih others (fun o later => operands o (List.mem_cons_of_mem _ later))
    obtain ⟨closed, one⟩ := read_item item first (fun o same => operands o (by simp [same]))
    rw [List.flatMap_cons]
    refine ⟨?_, ?_⟩
    · rw [Grammar.Complete, pending_append, closed]
      exact complete
    · rw [closed.read_append, one, items]
      rfl

/-- An option stays without its operand only before a token it does not accept. -/
theorem closed_not_dangling (accepted : ∀ a ∈ l, ∀ option, g.accepts option a = true) (option : α) :
    .dangling option ∉ g.closed o l := by
  induction l generalizing o with
  | nil => exact fun none => nomatch none
  | cons a rest ih =>
    obtain ⟨first, others⟩ := List.forall_mem_cons.mp accepted
    intro member
    rw [Grammar.closed, List.mem_append] at member
    rcases member with here | later
    · cases o with
      | none =>
        rw [Grammar.step, Grammar.start] at here
        split at here <;> simp at here
      | some o =>
        rw [Grammar.step, if_pos (first o)] at here
        simp at here
    · exact ih others later

end AxiomeToolchain.Library.OptionList
