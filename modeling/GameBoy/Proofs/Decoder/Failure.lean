import GameBoy.Proofs.Decoder.Calls
import GameBoy.Proofs.Decoder.LastMatch
import Mathlib.Data.Nat.Find

/-!
# How compiling ends

Rules make no table if the pattern of one of them is at fault, or if they leave a slot empty. The
first pattern at fault ends the work, before anything has been made of it or of the rules after it;
empty slots are looked for when all rules have been applied, and the lowest one is what is reported.
So there are three endings, `GameBoy.Decoder.Ending`, and each of them tells which generators have
been called by then and how often.

`GameBoy.Decoder.compile_ends` says that the list is complete. Up to the first pattern at fault the
rules are those that `GameBoy.Decoder.fillAll` applies (`GameBoy.Decoder.compile_of_fault`,
`GameBoy.Decoder.compile_of_fits`), and these are logged as their patterns ask for
(`GameBoy.Decoder.run_fillAll_logged`).
-/

namespace GameBoy.Decoder

open MonadAttach LawfulMonadAttach

variable {m : Type → Type} {α : Type}

/-! ### Patterns at fault -/

/-- **What is wrong with a pattern** for a table of a nominal size and an actual number of slots:
its first character that stands for no bit, or, where there is none, its width. -/
inductive Fault (size slots : Nat) (pattern : String) : TableError → Prop
  | invalidCharacter {before after : List Char} {found : Char}
    (h : pattern.toList = before ++ found :: after)
    (hb : ∀ c ∈ before, isPatternChar c = true) (hc : isPatternChar found = false) :
    Fault size slots pattern (.invalidCharacter pattern found)
  | tooWide (hp : ∀ c ∈ pattern.toList, isPatternChar c = true)
    (hw : 64 ≤ pattern.toList.length ∨ size < 2 ^ pattern.toList.length ∨
      slots < 2 ^ pattern.toList.length) :
    Fault size slots pattern (.tooWide pattern size)

/-- **A pattern without fault**: it has the right characters, and no more of them than the numbers
of the slots have bits. -/
structure Fits (size slots : Nat) (pattern : String) : Prop where
  chars : ∀ c ∈ pattern.toList, isPatternChar c = true
  width : pattern.toList.length < 64
  size : 2 ^ pattern.toList.length ≤ size
  slots : 2 ^ pattern.toList.length ≤ slots

/-- The numbers that a width can tell apart. -/
theorem span_eq (width : Nat) : span width = 2 ^ width := Nat.one_shiftLeft width

/-- **The check finds what is wrong with a pattern.** -/
theorem patternError?_spec (pattern : String) (size slots : Nat) :
    match patternError? pattern size slots with
    | some error => Fault size slots pattern error
    | none => Fits size slots pattern := by
  rw [patternError?]
  cases hf : pattern.toList.find? fun c => !isPatternChar c with
  | some found =>
    obtain ⟨hc, before, after, h, hb⟩ := List.find?_eq_some_iff_append.mp hf
    exact .invalidCharacter h (fun c hc => by simpa using hb c hc) (by simpa using hc)
  | none =>
    have chars : ∀ c ∈ pattern.toList, isPatternChar c = true := by simpa using hf
    simp only [indexBits, span_eq]
    by_cases hw : 64 ≤ pattern.toList.length ∨ size < 2 ^ pattern.toList.length ∨
        slots < 2 ^ pattern.toList.length
    · rw [if_pos hw]
      exact .tooWide chars hw
    · rw [if_neg hw]
      simp only [not_or, Nat.not_le, Nat.not_lt] at hw
      exact ⟨chars, hw.1, hw.2.1, hw.2.2⟩

variable {size slots : Nat} {pattern : String} {error : TableError}

/-- A pattern at fault does not fit. -/
theorem Fault.not_fits (h : Fault size slots pattern error) : ¬Fits size slots pattern := by
  intro fits
  cases h with
  | @invalidCharacter before after found h hb hc =>
    have here : found ∈ pattern.toList := by simp [h]
    rw [fits.chars _ here] at hc
    exact Bool.noConfusion hc
  | tooWide hp hw =>
    obtain ⟨-, width, size, slots⟩ := fits
    omega

/-- Nothing is found wrong with a pattern that fits. -/
theorem Fits.patternError? (h : Fits size slots pattern) :
    patternError? pattern size slots = none := by
  have spec := patternError?_spec pattern size slots
  cases hp : Decoder.patternError? pattern size slots with
  | none => rfl
  | some error =>
    rw [hp] at spec
    exact absurd h spec.not_fits

/-- Something is wrong with a pattern that does not fit. -/
theorem exists_fault_of_not_fits (h : ¬Fits size slots pattern) :
    ∃ error, Fault size slots pattern error ∧ patternError? pattern size slots = some error := by
  have spec := patternError?_spec pattern size slots
  cases hp : Decoder.patternError? pattern size slots with
  | none =>
    rw [hp] at spec
    exact absurd spec h
  | some error =>
    rw [hp] at spec
    exact ⟨error, spec, rfl⟩

/-! ### The first rule at fault -/

/-- A rule whose pattern fits a table. -/
def Rule.Fits (rule : Rule m α) (size : Nat) : Prop := Decoder.Fits size size rule.pattern

/-- **Either all rules fit, or there is a first one that does not.** -/
theorem exists_first_fault (size : Nat) (rules : List (Rule m α)) :
    (∀ rule ∈ rules, rule.Fits size) ∨
      ∃ before rule after, rules = before ++ rule :: after ∧ (∀ r ∈ before, r.Fits size) ∧
        ¬rule.Fits size := by
  induction rules with
  | nil => exact .inl fun _ h => absurd h List.not_mem_nil
  | cons first rest ih =>
    by_cases hf : first.Fits size
    · rcases ih with all | ⟨before, rule, after, rfl, fit, bad⟩
      · exact .inl (List.forall_mem_cons.mpr ⟨hf, all⟩)
      · exact .inr ⟨first :: before, rule, after, rfl, List.forall_mem_cons.mpr ⟨hf, fit⟩, bad⟩
    · exact .inr ⟨[], first, rest, rfl, fun _ h => absurd h List.not_mem_nil, hf⟩

section Compile

variable [Monad m] [LawfulMonad m] [MonadAttach m] [LawfulMonadAttach m]

/-- What comes after a computation need only be the same for what it can return. -/
theorem bind_congr_of_canReturn {γ δ : Type} {x : m γ} {f g : γ → m δ}
    (h : ∀ a, CanReturn x a → f a = g a) : x >>= f = x >>= g := by
  calc x >>= f
      = attach x >>= fun a => f a.val := WeaklyLawfulMonadAttach.attach_bind_val.symm
    _ = attach x >>= fun a => g a.val := congrArg (attach x >>= ·) (funext fun a => h a.1 a.2)
    _ = x >>= g := WeaklyLawfulMonadAttach.attach_bind_val

/-- **Rules that fit are applied in turn**, and then come the others. -/
theorem expandAll_append {before : List (Rule m α)} (fit : ∀ r ∈ before, r.Fits size)
    (rest : List (Rule m α)) {slots : Array (Option α)} (h : slots.size = size) :
    expandAll size (before ++ rest) slots = fillAll before slots >>= expandAll size rest := by
  induction before generalizing slots with
  | nil => simp [fillAll]
  | cons rule before ih =>
    obtain ⟨hr, fit⟩ := List.forall_mem_cons.mp fit
    have fits : patternError? rule.pattern size slots.size = none := by
      rw [h]
      exact hr.patternError?
    have applied : expandAll size (rule :: (before ++ rest)) slots =
        rule.fill rule.targets slots >>= expandAll size (before ++ rest) := by
      simp [expandAll, Rule.expand, fits]
    have unfolded : fillAll (rule :: before) slots =
        rule.fill rule.targets slots >>= fillAll before := rfl
    rw [List.cons_append, applied, unfolded, bind_assoc]
    refine bind_congr_of_canReturn fun filled hfilled => ?_
    exact ih fit ((Rule.fill_spec hfilled).1.trans h)

/-- Rules that are applied leave as many slots as there were. -/
theorem size_fillAll {rules : List (Rule m α)} {slots filled : Array (Option α)}
    (h : CanReturn (fillAll rules slots) filled) : filled.size = slots.size := by
  induction rules generalizing slots with
  | nil => exact congrArg Array.size (eq_of_canReturn_pure h).symm
  | cons rule rest ih =>
    obtain ⟨next, hfill, hrest⟩ := canReturn_bind_imp' h
    exact (ih hrest).trans (Rule.fill_spec hfill).1

/-- **The first rule at fault ends the work**, after the rules before it. -/
theorem compile_of_fault {before after : List (Rule m α)} {rule : Rule m α}
    (fit : ∀ r ∈ before, r.Fits size)
    (bad : patternError? rule.pattern size size = some error) :
    compile size (before ++ rule :: after) =
      (fun _ => .error error) <$> fillAll before (Array.replicate size none) := by
  rw [compile, expandAll_append fit _ Array.size_replicate, bind_assoc, map_eq_pure_bind]
  refine bind_congr_of_canReturn fun filled hfilled => ?_
  have same : filled.size = size := (size_fillAll hfilled).trans Array.size_replicate
  simp [expandAll, Rule.expand, same, bad]

/-- Rules that fit are all applied. -/
theorem expandAll_of_fits {rules : List (Rule m α)} (fit : ∀ r ∈ rules, r.Fits size) :
    expandAll size rules (Array.replicate size none) =
      .ok <$> fillAll rules (Array.replicate size none) := by
  have all : expandAll size (rules ++ []) (Array.replicate size none) =
      fillAll rules (Array.replicate size none) >>= expandAll size [] :=
    expandAll_append fit [] Array.size_replicate
  rw [List.append_nil] at all
  rw [all, map_eq_pure_bind]
  rfl

/-- **Rules that fit are all applied**, and then the slots are looked through. -/
theorem compile_of_fits {rules : List (Rule m α)} (fit : ∀ r ∈ rules, r.Fits size) :
    compile size rules =
      (fun slots => List.toArray <$> entries 0 slots.toList) <$>
        fillAll rules (Array.replicate size none) := by
  rw [compile, expandAll_of_fits fit, bind_map_left, map_eq_pure_bind]

/-! ### With a log -/

omit [LawfulMonad m] [MonadAttach m] [LawfulMonadAttach m] in
/-- A rule fits with a log as it does without. -/
theorem fits_logged {first : Nat} {rules : List (Rule m α)} (fit : ∀ r ∈ rules, r.Fits size) :
    ∀ r ∈ logged first rules, r.Fits size := by
  intro r hr
  obtain ⟨r', hr', same⟩ := exists_of_mem_logged hr
  have fits := fit r' hr'
  rwa [Rule.Fits, same] at fits

/-- **The log of rules that fit** has all the calls in it that are due. -/
theorem run_compile_of_fits {rules : List (Rule m α)} (fit : ∀ r ∈ rules, r.Fits size) :
    (compile size (logged 0 rules)).run [] =
      (fun result => (result, calls 0 rules)) <$> compile size rules := by
  rw [compile_of_fits fit, compile_of_fits (fits_logged fit), StateT.run_map, run_fillAll_logged,
    Functor.map_map, Functor.map_map]
  rfl

/-- **The log up to a rule at fault** has the calls of the rules before it. -/
theorem run_compile_of_fault {before after : List (Rule m α)} {rule : Rule m α}
    (fit : ∀ r ∈ before, r.Fits size)
    (bad : patternError? rule.pattern size size = some error) :
    (compile size (logged 0 (before ++ rule :: after))).run [] =
      (fun result => (result, calls 0 before)) <$> compile size (before ++ rule :: after) := by
  have bad' : patternError? (rule.logged (0 + before.length)).pattern size size = some error := bad
  rw [logged_append, logged, compile_of_fault fit bad, compile_of_fault (fits_logged fit) bad',
    StateT.run_map, run_fillAll_logged, Functor.map_map, Functor.map_map]
  rfl

/-- **Without its log** the work is the same as if none had been kept. -/
theorem map_fst_run_compile (size : Nat) (rules : List (Rule m α)) :
    Prod.fst <$> (compile size (logged 0 rules)).run [] = compile size rules := by
  have forgotten (log : List Call) :
      Prod.fst <$> (fun result => (result, log)) <$> compile size rules = compile size rules := by
    simp
  rcases exists_first_fault size rules with fit | ⟨before, rule, after, rfl, fit, unfit⟩
  · rw [run_compile_of_fits fit, forgotten]
  · obtain ⟨error, -, found⟩ := exists_fault_of_not_fits unfit
    rw [run_compile_of_fault fit found, forgotten]

end Compile

/-! ### Slots that are left empty -/

/-- **Some rule is for a number.** -/
def Covered (rules : List (Rule m α)) (number : Nat) : Prop := ∃ rule ∈ rules, rule.Matches number

/-- The lowest empty slot is the one that is reported. -/
theorem entries_of_gap {slots : List (Option α)} {slot : Nat} (first : Nat)
    (h : slots[slot]? = some none) (lowest : ∀ t < slot, slots[t]? ≠ some none) :
    entries first slots = .error (.unmapped (first + slot)) := by
  induction slots generalizing first slot with
  | nil => simp at h
  | cons entry? rest ih =>
    cases slot with
    | zero =>
      obtain rfl : entry? = none := by simpa using h
      rfl
    | succ slot =>
      have full : entry? ≠ none := fun he => lowest 0 (Nat.succ_pos slot) (by simp [he])
      obtain ⟨entry, rfl⟩ := Option.ne_none_iff_exists'.mp full
      have later : entries (first + 1) rest = .error (.unmapped (first + 1 + slot)) := by
        refine ih (first + 1) (by simpa using h) ?_
        intro t ht
        simpa using lowest (t + 1) (by omega)
      have shift : first + 1 + slot = first + (slot + 1) := by omega
      rw [entries, later, shift]
      rfl

/-- Slots of which none is empty make a table. -/
theorem exists_entries_eq_ok {slots : List (Option α)} (first : Nat)
    (h : none ∉ slots) : ∃ table, entries first slots = .ok table := by
  induction slots generalizing first with
  | nil => exact ⟨[], rfl⟩
  | cons entry? rest ih =>
    rw [List.mem_cons, not_or] at h
    obtain ⟨entry, rfl⟩ := Option.ne_none_iff_exists'.mp (Ne.symm h.1)
    obtain ⟨table, htable⟩ := ih (first + 1) h.2
    refine ⟨entry :: table, ?_⟩
    rw [entries, htable]
    rfl

/-- **The lowest empty slot is reported.** -/
theorem toArray_entries_of_gap {filled : Array (Option α)} {slot : Nat}
    (h : filled[slot]? = some none) (lowest : ∀ t < slot, filled[t]? ≠ some none) :
    List.toArray <$> entries 0 filled.toList = .error (.unmapped slot) := by
  rw [entries_of_gap 0 (by rwa [Array.getElem?_toList]) (by simpa using lowest), Nat.zero_add]
  rfl

/-- **A table is made of slots of which none is empty**, and has as many entries. -/
theorem exists_toArray_entries_eq_ok {filled : Array (Option α)}
    (h : ∀ t < filled.size, filled[t]? ≠ some none) :
    ∃ table : Array α, table.size = filled.size ∧
      List.toArray <$> entries 0 filled.toList = .ok table := by
  have none_not_mem : none ∉ filled.toList := by
    intro hmem
    obtain ⟨t, ht⟩ := List.getElem?_of_mem hmem
    rw [Array.getElem?_toList] at ht
    exact h t (Array.getElem?_eq_some_iff.mp ht).1 ht
  obtain ⟨table, htable⟩ := exists_entries_eq_ok 0 none_not_mem
  have length := congrArg List.length (entries_ok htable)
  rw [List.length_map, Array.length_toList] at length
  exact ⟨table.toArray, length.symm, by rw [htable]; rfl⟩

/-! ### The endings -/

/-- **The endings of the work on a table**, each with its condition, and with how often the rules
have been called by then. -/
inductive Ending (size : Nat) (rules : List (Rule m α)) :
    Except TableError (Array α) → (Nat → Nat) → Prop
  /-- The first rule at fault ends the work. All rules before it have been called, but neither this
  one nor those after it. -/
  | fault {before after : List (Rule m α)} {rule : Rule m α} {error : TableError}
    (h : rules = before ++ rule :: after) (fit : ∀ r ∈ before, r.Fits size)
    (bad : Fault size size rule.pattern error) :
    Ending size rules (.error error) (callsDue before)
  /-- All rules have been called, and the lowest slot that none is for is empty. -/
  | gap {slot : Nat} (fit : ∀ r ∈ rules, r.Fits size) (hs : slot < size)
    (gap : ¬Covered rules slot) (lowest : ∀ t < slot, Covered rules t) :
    Ending size rules (.error (.unmapped slot)) (callsDue rules)
  /-- All rules have been called, and every slot is filled. -/
  | table {table : Array α} (fit : ∀ r ∈ rules, r.Fits size) (full : ∀ t < size, Covered rules t)
    (hs : table.size = size) : Ending size rules (.ok table) (callsDue rules)

variable [Monad m] [LawfulMonad m] [MonadAttach m] [LawfulMonadAttach m]
variable {rules : List (Rule m α)} {result : Except TableError (Array α)}

/-- **The slots that are left empty** are those that no rule is for. -/
theorem empty_iff_not_covered {filled : Array (Option α)}
    (h : CanReturn (expandAll size rules (Array.replicate size none)) (.ok filled)) :
    filled.size = size ∧ ∀ t < size, filled[t]? = some none ↔ ¬Covered rules t := by
  obtain ⟨hsize, hspec⟩ := expandAll_spec h
  rw [Array.size_replicate] at hsize hspec
  refine ⟨hsize, fun t ht => ?_⟩
  rcases hspec t ht with ⟨rule, entry, ⟨before, after, rfl, hm, -⟩, -, hget⟩ | ⟨hnot, hget⟩
  · have covered : Covered (before ++ rule :: after) t := ⟨rule, by simp, hm⟩
    simp [hget, covered]
  · have uncovered : ¬Covered rules t := fun ⟨rule, hr, hm⟩ => hnot rule hr hm
    rw [Array.getElem?_replicate, if_pos ht] at hget
    simp [hget, uncovered]

/-- **Where all rules fit** the slots decide. -/
theorem ending_of_fits (fit : ∀ r ∈ rules, r.Fits size)
    (h : CanReturn (compile size rules) result) : Ending size rules result (callsDue rules) := by
  obtain ⟨_ | filled, hall, hpure⟩ := canReturn_bind_imp' h
  · -- no rule is at fault
    rw [expandAll_of_fits fit] at hall
    obtain ⟨_, _, he⟩ := canReturn_map_imp' hall
    cases he
  obtain rfl := eq_of_canReturn_pure hpure
  obtain ⟨hsize, hempty⟩ := empty_iff_not_covered hall
  by_cases full : ∀ t < size, Covered rules t
  · have filled_up : ∀ t < filled.size, filled[t]? ≠ some none := by
      intro t ht he
      rw [hsize] at ht
      exact (hempty t ht).mp he (full t ht)
    obtain ⟨table, htable, made⟩ := exists_toArray_entries_eq_ok filled_up
    rw [made]
    exact .table fit full (htable.trans hsize)
  · have exists_gap : ∃ t, t < size ∧ ¬Covered rules t := by simpa using full
    classical
    obtain ⟨hs, gap⟩ := Nat.find_spec exists_gap
    have lowest : ∀ t < Nat.find exists_gap, Covered rules t := by
      intro t ht
      have found := Nat.find_min exists_gap ht
      rw [not_and, not_not] at found
      exact found (Nat.lt_trans ht hs)
    rw [toArray_entries_of_gap ((hempty _ hs).mpr gap) fun t ht he =>
      (hempty t (Nat.lt_trans ht hs)).mp he (lowest t ht)]
    exact .gap fit hs gap lowest

/-- **Whatever the work can end in is one of the three**, with the calls that belong to it. -/
theorem ending_of_canReturn {log : List Call}
    (h : CanReturn ((compile size (logged 0 rules)).run []) (result, log)) :
    Ending size rules result (callCount log) := by
  have counted (rules : List (Rule m α)) : callCount (calls 0 rules) = callsDue rules := by
    funext i
    have due := callCount_calls 0 rules i
    rwa [Nat.zero_add] at due
  rcases exists_first_fault size rules with fit | ⟨before, rule, after, rfl, fit, unfit⟩
  · rw [run_compile_of_fits fit] at h
    obtain ⟨_, hresult, he⟩ := canReturn_map_imp' h
    obtain ⟨rfl, rfl⟩ := Prod.mk.inj he
    rw [counted]
    exact ending_of_fits fit hresult
  · obtain ⟨error, bad, found⟩ := exists_fault_of_not_fits unfit
    rw [run_compile_of_fault fit found, compile_of_fault fit found] at h
    obtain ⟨_, hresult, he⟩ := canReturn_map_imp' h
    obtain ⟨_, _, rfl⟩ := canReturn_map_imp' hresult
    obtain ⟨rfl, rfl⟩ := Prod.mk.inj he
    rw [counted]
    exact .fault rfl fit bad

omit [Monad m] [LawfulMonad m] [MonadAttach m] [LawfulMonadAttach m] in
/-- **When there is no table**: a character of some pattern stands for no bit, or some pattern is too
wide, or there is a slot that no rule is for. -/
theorem Ending.error_iff {count : Nat → Nat} (h : Ending size rules result count) :
    (∃ error, result = .error error) ↔
      (∃ rule ∈ rules, ∃ c ∈ rule.pattern.toList, c ≠ '0' ∧ c ≠ '1' ∧ c.isAlpha = false) ∨
      (∃ rule ∈ rules, size < 2 ^ rule.pattern.toList.length ∨ 64 ≤ rule.pattern.toList.length) ∨
      ∃ slot < size, ¬Covered rules slot := by
  have strange (c : Char) :
      isPatternChar c = false ↔ c ≠ '0' ∧ c ≠ '1' ∧ c.isAlpha = false := by
    simp [isPatternChar, and_assoc]
  cases h with
  | @fault before after rule error h fit bad =>
    subst h
    refine iff_of_true ⟨_, rfl⟩ ?_
    have here : rule ∈ before ++ rule :: after := by simp
    cases bad with
    | @invalidCharacter _ _ found h _ hc =>
      exact .inl ⟨rule, here, found, by simp [h], (strange found).mp hc⟩
    | tooWide _ hw => exact .inr (.inl ⟨rule, here, by omega⟩)
  | gap fit hs gap lowest => exact iff_of_true ⟨_, rfl⟩ (.inr (.inr ⟨_, hs, gap⟩))
  | table fit full hs =>
    refine iff_of_false (fun ⟨_, he⟩ => nomatch he) ?_
    rintro (⟨rule, hr, c, hc, odd⟩ | ⟨rule, hr, wide⟩ | ⟨slot, hslot, gap⟩)
    · have good := (fit rule hr).chars c hc
      rw [(strange c).mpr odd] at good
      exact Bool.noConfusion good
    · obtain ⟨-, width, narrow, -⟩ := fit rule hr
      omega
    · exact gap (full slot hslot)

/-- A computation with a state can return what it does return. -/
theorem canReturn_run {σ γ : Type} (x : StateM σ γ) (s : σ) : CanReturn x (x.run s).1 :=
  ⟨s, (x.run s).2, rfl⟩

/-- **How compiling ends.** The generators may use a state of any kind. Keeping a log of their calls
makes no difference to the result or to what they do to the state. The work has one of the three
endings, and each rule has been called as often as goes with it. It ends without a table if and only
if a character of some pattern stands for no bit, or some pattern is too wide, or there is a slot
that no rule is for. -/
theorem compile_ends {σ : Type} (size : Nat) (rules : List (Rule (StateM σ) α)) (s : σ) :
    let ran := ((compile size (logged 0 rules)).run []).run s
    (compile size rules).run s = (ran.1.1, ran.2) ∧
    Ending size rules ran.1.1 (callCount ran.1.2) ∧
    ((∃ error, ran.1.1 = .error error) ↔
      (∃ rule ∈ rules, ∃ c ∈ rule.pattern.toList, c ≠ '0' ∧ c ≠ '1' ∧ c.isAlpha = false) ∨
      (∃ rule ∈ rules, size < 2 ^ rule.pattern.toList.length ∨ 64 ≤ rule.pattern.toList.length) ∨
      ∃ slot < size, ¬Covered rules slot) := by
  intro ran
  have ending : Ending size rules ran.1.1 (callCount ran.1.2) :=
    ending_of_canReturn (canReturn_run ((compile size (logged 0 rules)).run []) s)
  refine ⟨?_, ending, ending.error_iff⟩
  exact (congrArg (·.run s) (map_fst_run_compile size rules)).symm

/-- A strange character is reported, though the pattern is also too wide. -/
example : Id.run (compile 4 [⟨"ab", fun f => pure (f.get 'a')⟩, ⟨"a?bcd", fun _ => pure 0⟩]) =
    .error (.invalidCharacter "a?bcd" '?') := by
  decide

end GameBoy.Decoder
