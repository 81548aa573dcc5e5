import AxiomeToolchain.Guarantees.EnvironmentLookup
import AxiomeToolchain.Guarantees.ProgramEntry
import AxiomeToolchain.Source.EnvironmentMemory
import AxiomeToolchain.Source.ProgramStart
import AxiomeToolchain.Source.Syscall

/-!
# From the initial stack to the exit status

`_start` with the `__axiome_set_environ` of stdlib.c: what main finds in its
registers, what getenv finds in memory as long as the environment is left alone,
and what the kernel is told when main returns, compared with exit.
-/

set_option autoImplicit false

namespace AxiomeToolchain.Guarantees.ProgramLife
open AxiomeToolchain.Library.ByteMemory
open AxiomeToolchain.Library.TerminatedString
open AxiomeToolchain.Library.CInt
open AxiomeToolchain.Library.Amd64
open AxiomeToolchain.Library.LinearSearch
open AxiomeToolchain.Source.Heap (null)
open AxiomeToolchain.Source.Stdio (CString ascii)
open AxiomeToolchain.Source.Environment (equalsSign)
open AxiomeToolchain.Source.EnvironmentMemory
open AxiomeToolchain.Source.ProgramStart
open AxiomeToolchain.Source.Syscall (SystemCall)
open AxiomeToolchain.Guarantees.EnvironmentLookup
open AxiomeToolchain.Guarantees.ProgramEntry (atHook_regs atMain_regs exampleStack exampleMachine
  exampleEnvironment example_laid)

/-! ## The environment in memory -/

/-- The environment as getenv finds it: each pointer with its string. -/
def slots (s : InitialStack) (texts : List CString) : List Slot :=
  List.zipWith (fun word text => ⟨word.toNat, text⟩) s.envp texts

/-- Bytes of the variable `environ` at this address. -/
def VariableByte (environ : Word) (x : Nat) : Prop := environ.toNat ≤ x ∧ x < environ.toNat + 8

/-- Bytes of the words the kernel put on the stack. -/
def StackByte (s : InitialStack) (x : Nat) : Prop :=
  s.address.toNat ≤ x ∧ x < s.address.toNat + 8 * s.words.length

/-- Bytes below the stack pointer that a call writes. -/
def PushedByte (s : InitialStack) (x : Nat) : Prop :=
  s.address.toNat - 8 ≤ x ∧ x < s.address.toNat

def StringByte (s : InitialStack) (texts : List CString) (x : Nat) : Prop :=
  ∃ slot ∈ slots s texts, slot.ptr ≤ x ∧ x ≤ slot.ptr + slot.text.bytes.length

/-- What the environment is made of. -/
def EnvironmentByte (s : InitialStack) (texts : List CString) (environ : Word) (x : Nat) : Prop :=
  VariableByte environ x ∨ StackByte s x ∨ StringByte s texts x

/-- The program as the kernel loads it: the strings behind the pointers, the
variable and the room for the return address apart from them and each other. -/
structure Loaded (s : InitialStack) (texts : List CString) (environ : Word) (m : Machine) :
    Prop where
  laid : s.Laid m
  strings : List.Forall₂ (fun word text => word ≠ 0 ∧ StringAt m.memory word.toNat text.bytes)
    s.envp texts
  room : 8 ≤ s.address.toNat
  pushed : ∀ x, PushedByte s x → ¬ VariableByte environ x ∧ ¬ StringByte s texts x
  stored : ∀ x, VariableByte environ x → ¬ StackByte s x ∧ ¬ StringByte s texts x

variable {s : InitialStack} {texts : List CString} {environ : Word} {m : Machine} {word : Word}
  {memory : Memory} {i : Nat}

theorem words_length (s : InitialStack) : s.words.length = s.argv.length + s.envp.length + 3 := by
  simp only [InitialStack.words, List.length_append, List.length_cons, List.length_nil]
  omega

theorem slot_toNat (s : InitialStack) (inside : i < s.words.length) :
    (s.slot i).toNat = s.address.toNat + 8 * i := by
  have fits := s.fits
  rw [words_length] at inside
  rw [InitialStack.slot, BitVec.toNat_add, BitVec.toNat_ofNat]
  omega

/-- The words of the stack as the numbers in memory. -/
theorem readLE_of_laid (laid : s.Laid m) (found : s.words[i]? = some word) :
    readLE m.memory (s.address.toNat + 8 * i) 8 = word.toNat := by
  have inside := (List.getElem?_eq_some_iff.mp found).1
  have small := readLE_lt m.memory (s.address.toNat + 8 * i) 8
  rw [← laid.held i word found, Machine.load, slot_toNat s inside, BitVec.toNat_ofNat]
  exact (Nat.mod_eq_of_lt small).symm

theorem envpAddress_toNat (s : InitialStack) :
    s.envpAddress.toNat = s.address.toNat + 8 * (s.argv.length + 2) := by
  apply slot_toNat
  rw [words_length]
  omega

theorem words_of_envp (s : InitialStack) (i : Nat) :
    s.words[s.argv.length + 2 + i]? = (s.envp ++ [0])[i]? := by
  rw [← s.words_envp, List.getElem?_drop]

theorem mem_slots (aligned : List.Forall₂ (fun word text => word ≠ 0 ∧
      StringAt memory word.toNat text.bytes) s.envp texts) :
    ∀ slot ∈ slots s texts, slot.ptr ≠ null ∧ StringAt memory slot.ptr slot.text.bytes := by
  rw [slots]
  generalize s.envp = words at aligned ⊢
  induction aligned with
  | nil => simp
  | @cons word text words rest both _ ih =>
    rw [List.zipWith_cons_cons, List.forall_mem_cons]
    refine ⟨⟨fun zero => both.1 (BitVec.eq_of_toNat_eq zero), both.2⟩, ih⟩

/-- As long as its bytes are those of the loaded program, and the variable holds
envp, the environment is an array that getenv can search. -/
theorem Loaded.array (loaded : Loaded s texts environ m)
    (table : ∀ x, StackByte s x → memory x = m.memory x)
    (strings : ∀ x, StringByte s texts x → memory x = m.memory x) :
    ArrayAt memory s.envpAddress.toNat (slots s texts) := by
  have length : (slots s texts).length = s.envp.length := by
    rw [slots, List.length_zipWith, loaded.strings.length_eq, Nat.min_self]
  have read (i : Nat) (word : Word) (found : (s.envp ++ [0])[i]? = some word) :
      readLE memory (s.envpAddress.toNat + 8 * i) 8 = word.toNat := by
    rw [← words_of_envp s] at found
    have inside := (List.getElem?_eq_some_iff.mp found).1
    have place : s.envpAddress.toNat + 8 * i =
        s.address.toNat + 8 * (s.argv.length + 2 + i) := by
      rw [envpAddress_toNat]
      omega
    rw [place, ← readLE_of_laid loaded.laid found]
    exact readLE_congr 8 _ (fun x low high => table x ⟨by omega, by omega⟩)
  have held := mem_slots loaded.strings
  constructor
  · intro i slot found
    rw [slots, List.getElem?_zipWith] at found
    cases word_at : s.envp[i]? with
    | none => simp [word_at] at found
    | some word =>
      cases text_at : texts[i]? with
      | none => simp [word_at, text_at] at found
      | some text =>
        simp only [word_at, text_at, Option.some.injEq] at found
        rw [← found]
        apply read i word
        rw [List.getElem?_append_left (List.getElem?_eq_some_iff.mp word_at).1, word_at]
  · exact fun slot member => (held slot member).1
  · intro slot member
    exact (held slot member).2.congr (fun x low high => strings x ⟨slot, member, low, high⟩)
  · rw [length]
    exact read _ 0 (by rw [List.getElem?_append_right (Nat.le_refl _), Nat.sub_self]; rfl)

/-! ## What getenv finds -/

/-- The pointer getenv returns for a key: to the value of the first entry with
it, or NULL if there is none. -/
structure Finds (texts : List CString) (memory : Memory) (key : List UInt8) (r : Nat) : Prop where
  null_iff : r = null ↔ ∀ text ∈ texts, keyOf text.bytes ≠ some key
  value : r ≠ null → ∃ i : Nat, ∃ text ∈ texts[i]?, keyOf text.bytes = some key ∧
    StringAt memory r (valueOf text.bytes) ∧
    ∀ j : Nat, j < i → ∀ earlier ∈ texts[j]?, keyOf earlier.bytes ≠ some key

theorem objects_eq (slots : List Slot) :
    objects slots = array (slots.map (fun slot => ⟨slot.text, []⟩)) [] := by
  simp [objects, array, Entry.object, Function.comp_def]

theorem getenv_loaded {slots : List Slot}
    (array : ArrayAt memory (readLE memory environ.toNat 8) slots)
    (published : readLE memory environ.toNat 8 ≠ null) (few : slots.length < wordModulus)
    {name : Nat} (nonnull : name ≠ null) {key : CString} (held : StringAt memory name key.bytes)
    (nonempty : key.bytes ≠ []) (plain : equalsSign ∉ key.bytes) :
    ∃ r, getenv memory environ.toNat name = some r ∧
      Finds (slots.map Slot.text) memory key.bytes r := by
  obtain ⟨r, run, first⟩ := searchLoop_first key plain (slots.map (fun slot => ⟨slot.text, []⟩)) []
  have found := getenv_search (objects slots) key [] nonempty
  rw [List.append_nil, objects_eq] at found
  have key_iff (i : Nat) : HasKey (slots.map (fun slot => ⟨slot.text, []⟩)) key i ↔
      ∃ text ∈ (slots.map Slot.text)[i]?, keyOf text.bytes = some key.bytes := by
    simp [HasKey]
  refine ⟨address slots (r.map (fun i => (i, key.bytes.length + 1))), ?_, ?_⟩
  · rw [getenv_refines array published few nonnull key held, objects_eq, found, run]
    rfl
  · cases r with
    | none =>
      have absent : ∀ text ∈ slots.map Slot.text, keyOf text.bytes ≠ some key.bytes := by
        intro text member known
        obtain ⟨i, at_i⟩ := List.mem_iff_getElem?.mp member
        exact first i ((key_iff i).mpr ⟨text, at_i, known⟩)
      exact ⟨iff_of_true rfl absent, fun nonzero => absurd rfl nonzero⟩
    | some i =>
      obtain ⟨text, at_i, known⟩ := (key_iff i).mp first.1
      obtain ⟨slot, slot_at, rfl⟩ : ∃ slot, slots[i]? = some slot ∧ slot.text = text := by
        simpa using at_i
      have member := List.mem_of_getElem? slot_at
      have place : address slots (some (i, key.bytes.length + 1)) =
          slot.ptr + (key.bytes ++ [equalsSign]).length := by
        simp [address, slot_at]
      obtain ⟨value, parts⟩ := (keyOf_eq_iff plain).mp known
      have string := array.strings slot member
      rw [parts, ← List.singleton_append, ← List.append_assoc] at string
      have behind := string.suffix
      refine ⟨iff_of_false ?_ ?_, fun _ => ⟨i, slot.text, at_i, known, ?_, ?_⟩⟩
      · rw [Option.map_some, place]
        have := array.nonnull slot member
        simp [null]
      · exact fun absent => absent _ (List.mem_of_getElem? at_i) known
      · rw [Option.map_some, place, parts, valueOf_eq plain]
        exact behind
      · intro j less earlier at_j known'
        exact first.2 j less ((key_iff j).mpr ⟨earlier, at_j, known'⟩)

/-! ## The run of _start -/

/-- main's machine at its entry, from the two return addresses. -/
def entered (s : InitialStack) (m : Machine) (environ toMain toExit : Word) : Machine :=
  atMain ((atHook s m toMain).store environ ((atHook s m toMain).regs .rdi)).pop toExit

theorem run_entered (env : Environment Target) (laid : s.Laid m)
    (hook : env.callee .setEnviron = setEnviron environ) :
    run env start m = .call .setEnviron (atHook s m (env.place callMain)) ::
      .call .main (entered s m environ (env.place callMain) (env.place exitCall)) ::
      (env.callee .main (entered s m environ (env.place callMain) (env.place exitCall))).elim []
        (fun back => run env exitCall back) := by
  rw [run_start env laid, hook, setEnviron, Option.elim_some, run_callMain]
  rfl

theorem entered_regs (s : InitialStack) (m : Machine) (environ toMain toExit : Word) :
    (entered s m environ toMain toExit).regs .rdi = s.argc ∧
      (entered s m environ toMain toExit).regs .rsi = s.argvAddress ∧
      (entered s m environ toMain toExit).regs .rdx = s.envpAddress := by
  obtain ⟨-, rdx, r8, r9⟩ := atHook_regs s m toMain
  obtain ⟨argc, argv, envp⟩ := atMain_regs
    ((atHook s m toMain).store environ ((atHook s m toMain).regs .rdi)).pop toExit
  simp only [Machine.regs_pop, Machine.regs_store, reduceCtorEq, if_false] at argc argv envp
  exact ⟨argc.trans r8, argv.trans r9, envp.trans rdx⟩

/-- Two return addresses in the same place, and the variable between them. -/
theorem entered_memory (laid : s.Laid m) (room : 8 ≤ s.address.toNat)
    (environ toMain toExit : Word) :
    (entered s m environ toMain toExit).memory =
      writeLE (writeLE (writeLE m.memory (s.address.toNat - 8) toMain.toNat 8) environ.toNat
        s.envpAddress.toNat 8) (s.address.toNat - 8) toExit.toNat 8 := by
  have below : (s.address - 8).toNat = s.address.toNat - 8 := BitVec.toNat_sub_of_le room
  have back : s.address - 8 + 8 = s.address := BitVec.sub_add_cancel _ _
  obtain ⟨rdi, -⟩ := atHook_regs s m toMain
  rw [entered, rdi]
  simp only [atMain, atHook, Machine.push, Machine.pop, Machine.set, Machine.store,
    Function.update_self, Function.update_of_ne, ne_eq, reduceCtorEq, not_false_eq_true,
    laid.stackPointer, below, back]

theorem run_exitCall (env : Environment Target) (back : Machine) :
    ∃ last, run env exitCall back = [.syscall last] ∧ last.regs .rax = sysExit ∧
      last.regs .rdi = ((back.regs .rax).setWidth 32).setWidth 64 := by
  refine ⟨(back.set .rdi (((back.regs .rax).setWidth 32).setWidth 64)).set .rax sysExit, ?_, ?_, ?_⟩
  · simp only [exitCall, run]
    cases env.kernel _ <;> rfl
  · simp
  · simp

/-- exit extends the sign of a status, the code behind main does not. -/
theorem status_extended_iff (status : BitVec 32) :
    status.setWidth 64 = status.signExtend 64 ↔ status.msb = false := by
  constructor
  · intro same
    by_contra negative
    rw [Bool.not_eq_false] at negative
    have values := congrArg BitVec.toNat same
    rw [BitVec.toNat_signExtend, negative, if_pos rfl] at values
    omega
  · exact fun positive => (BitVec.signExtend_eq_setWidth_of_msb_false positive).symm

/-- The bytes of the variable and of the pushed return addresses apart, main
finds the memory as the kernel left it. -/
theorem entered_frame (laid : s.Laid m) (room : 8 ≤ s.address.toNat)
    (environ toMain toExit : Word) {x : Nat} (unpushed : ¬ PushedByte s x)
    (unstored : ¬ VariableByte environ x) :
    (entered s m environ toMain toExit).memory x = m.memory x := by
  unfold PushedByte at unpushed
  unfold VariableByte at unstored
  rw [entered_memory laid room]
  rw [writeLE_frame 8 _ _ _ x (by omega), writeLE_frame 8 _ _ _ x (by omega),
    writeLE_frame 8 _ _ _ x (by omega)]

theorem entered_published (loaded : Loaded s texts environ m) (toMain toExit : Word) :
    readLE (entered s m environ toMain toExit).memory environ.toNat 8 = s.envpAddress.toNat := by
  have small := s.envpAddress.isLt
  have room := loaded.room
  rw [entered_memory loaded.laid room]
  have kept := readLE_congr 8 environ.toNat (fun x low high => writeLE_frame 8
    (writeLE (writeLE m.memory (s.address.toNat - 8) toMain.toNat 8) environ.toNat
      s.envpAddress.toNat 8) (s.address.toNat - 8) toExit.toNat x (by
        have apart : ¬ PushedByte s x := fun pushed => (loaded.pushed x pushed).1 ⟨low, high⟩
        unfold PushedByte at apart
        omega))
  rw [kept, readLE_writeLE_same]
  exact Nat.mod_eq_of_lt small

theorem Loaded.texts_slots (loaded : Loaded s texts environ m) :
    (slots s texts).map Slot.text = texts ∧ (slots s texts).length < wordModulus := by
  have fits := s.fits
  rw [slots, List.map_zipWith, ← List.map_uncurry_zip_eq_zipWith, List.length_zipWith, wordModulus]
  refine ⟨List.map_snd_zip (le_of_eq loaded.strings.length_eq.symm), ?_⟩
  omega

/-- As long as the environment's bytes are those main has found, the variable
holds envp and the array is there. -/
theorem Loaded.array_entered (loaded : Loaded s texts environ m) (toMain toExit : Word)
    (same : ∀ x, EnvironmentByte s texts environ x →
      memory x = (entered s m environ toMain toExit).memory x) :
    readLE memory environ.toNat 8 ≠ null ∧
      ArrayAt memory (readLE memory environ.toNat 8) (slots s texts) := by
  have kept {x : Nat} (inside : EnvironmentByte s texts environ x)
      (unpushed : ¬ PushedByte s x) (unstored : ¬ VariableByte environ x) :
      memory x = m.memory x :=
    (same x inside).trans (entered_frame loaded.laid loaded.room _ _ _ unpushed unstored)
  have table : ∀ x, StackByte s x → memory x = m.memory x := fun x inside =>
    kept (.inr (.inl inside)) (fun pushed => Nat.not_le_of_lt pushed.2 inside.1)
      (fun stored => (loaded.stored x stored).1 inside)
  have strings : ∀ x, StringByte s texts x → memory x = m.memory x := fun x inside =>
    kept (.inr (.inr inside)) (fun pushed => (loaded.pushed x pushed).2 inside)
      (fun stored => (loaded.stored x stored).2 inside)
  have published : readLE memory environ.toNat 8 = s.envpAddress.toNat := by
    rw [← entered_published loaded toMain toExit]
    exact readLE_congr 8 _ (fun x low high => same x (.inl ⟨low, high⟩))
  have place := envpAddress_toNat s
  rw [published, null]
  exact ⟨by omega, loaded.array table strings⟩

/-- Every loaded program: main is entered with argc, argv and envp; as long as the
environment is left as it was then, getenv finds the first entry with a key; and
when main returns the kernel gets the call of exit with the low half of its
result, extended with zeros where exit extends the sign. -/
theorem program_life (s : InitialStack) (texts : List CString) (environ : Word) (m : Machine)
    (env : Environment Target) (loaded : Loaded s texts environ m)
    (hook : env.callee .setEnviron = setEnviron environ) :
    ∃ atHook entry later, run env start m = .call .setEnviron atHook :: .call .main entry :: later ∧
      entry.regs .rdi = s.argc ∧ entry.regs .rsi = s.argvAddress ∧
      entry.regs .rdx = s.envpAddress ∧
      (∀ memory : Memory, (∀ x, EnvironmentByte s texts environ x → memory x = entry.memory x) →
        ∀ (name : Nat) (key : CString), name ≠ null → StringAt memory name key.bytes →
          key.bytes ≠ [] → equalsSign ∉ key.bytes →
            ∃ r, getenv memory environ.toNat name = some r ∧ Finds texts memory key.bytes r) ∧
      ∀ back, env.callee .main entry = some back →
        ∃ last, later = [.syscall last] ∧
          last.regs .rax = (SystemCall.exitStatus ((back.regs .rax).setWidth 32)).registers.rax ∧
          last.regs .rdi = ((back.regs .rax).setWidth 32).setWidth 64 ∧
          (last.regs .rdi = (SystemCall.exitStatus ((back.regs .rax).setWidth 32)).registers.rdi ↔
            ((back.regs .rax).setWidth 32).msb = false) := by
  obtain ⟨rdi, rsi, rdx⟩ := entered_regs s m environ (env.place callMain) (env.place exitCall)
  refine ⟨_, _, _, run_entered env loaded.laid hook, rdi, rsi, rdx, ?_, ?_⟩
  · intro memory same name key nonnull held nonempty plain
    obtain ⟨published, array⟩ := loaded.array_entered _ _ same
    obtain ⟨names, few⟩ := loaded.texts_slots
    obtain ⟨r, found, finds⟩ := getenv_loaded array published few nonnull held nonempty plain
    exact ⟨r, found, names ▸ finds⟩
  · intro back returned
    obtain ⟨last, events, rax, rdi⟩ := run_exitCall env back
    refine ⟨last, ?_, rax, rdi, ?_⟩
    · rw [returned, Option.elim_some, events]
    · rw [rdi]
      exact status_extended_iff _

/-! ## One argument and one entry -/

def oneEntry : InitialStack := ⟨4096, [8192], [8448], by decide⟩

def entryText : CString := ⟨ascii "A=b", by decide, by decide⟩

theorem entryText_length : entryText.bytes.length = 3 := by decide

def oneEntryMachine : Machine :=
  { regs := fun r => if r = .rsp then 4096 else 0
    memory := writeBytes (writeLE (writeLE (writeLE (fun _ => 0) 4096 1 8) 4104 8192 8)
      4120 8448 8) 8448 entryText.bytes }

theorem oneEntry_loaded : Loaded oneEntry [entryText] 16384 oneEntryMachine where
  laid := by
    refine ⟨rfl, fun i word found => ?_⟩
    have inside : i < 5 := (List.getElem?_eq_some_iff.mp found).1
    interval_cases i <;> (cases found; decide)
  strings := .cons ⟨by decide, by decide, by decide, by decide⟩ .nil
  room := by decide
  pushed x pushed := by
    obtain ⟨low, high⟩ := pushed
    simp [oneEntry, VariableByte, StringByte, slots, entryText_length] at low high ⊢
    omega
  stored x stored := by
    obtain ⟨low, high⟩ := stored
    simp [oneEntry, StackByte, StringByte, slots, entryText_length, words_length] at low high ⊢
    omega

theorem oneEntry_places : ∀ x, EnvironmentByte oneEntry [entryText] 16384 x →
    (16384 ≤ x ∧ x < 16392) ∨ (4096 ≤ x ∧ x < 4136) ∨ (8448 ≤ x ∧ x < 8452) := by
  intro x inside
  rcases inside with ⟨low, high⟩ | ⟨low, high⟩ | ⟨slot, member, low, high⟩
  · simp at low high
    omega
  · simp [oneEntry, words_length] at low high
    omega
  · simp [oneEntry, slots] at member
    subst member
    simp [entryText_length] at low high
    omega

/-- main puts the name "A" somewhere and asks for its value. -/
theorem program_life_one_entry : ∃ hook entry r,
    run (exampleEnvironment (setEnviron 16384)) start oneEntryMachine =
        [.call .setEnviron hook, .call .main entry] ∧
      getenv (writeBytes entry.memory 8704 [65, 0]) 16384 8704 = some r ∧
      StringAt (writeBytes entry.memory 8704 [65, 0]) r [98] := by
  obtain ⟨hook, entry, later, events, -, -, -, finds, -⟩ := program_life oneEntry [entryText] 16384
    oneEntryMachine (exampleEnvironment (setEnviron 16384)) oneEntry_loaded rfl
  have same : ∀ x, EnvironmentByte oneEntry [entryText] 16384 x →
      writeBytes entry.memory 8704 [65, 0] x = entry.memory x := by
    intro x inside
    apply writeBytes_frame
    have places := oneEntry_places x inside
    simp only [List.length_cons, List.length_nil]
    omega
  obtain ⟨r, found, null_iff, value⟩ := finds _ same 8704 ⟨[65], by decide, by decide⟩ (by decide)
    (stringAt_written (s := [65]) entry.memory 8704 (by decide)) (by decide) (by decide)
  have nonnull : r ≠ null := by
    intro zero
    exact null_iff.mp zero entryText List.mem_cons_self (by decide)
  obtain ⟨i, text, at_i, -, held, -⟩ := value nonnull
  obtain rfl : text = entryText := List.mem_singleton.mp (List.mem_of_getElem? at_i)
  have none_later : later = [] := by
    have whole := events.symm.trans (run_entered _ oneEntry_loaded.laid rfl)
    exact (List.cons.inj (List.cons.inj whole).2).2
  exact ⟨hook, entry, r, by rw [events, none_later], found, held⟩

end AxiomeToolchain.Guarantees.ProgramLife
