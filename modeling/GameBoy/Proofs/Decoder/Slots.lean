import GameBoy.Proofs.Decoder.Failure
import Mathlib.Tactic.Ring

/-!
# What a rule does to the slots it is applied to

One rule applied to slots of which some may be filled already, as many as there happen to be. Either
the pattern of the rule is at fault, and nothing at all is done; or the generator is called for the
numbers that the pattern matches, from the lowest to the highest, and each entry that it makes goes
to the slot with that number, whatever was there before. `GameBoy.Decoder.expand_ends` says so,
for generators with effects of any kind.

A pattern is followed through branch by branch, so that it takes a proof that the numbers come in
ascending order (`GameBoy.Decoder.pairwise_expansions`) and hence none of them twice. The effects of
the generators stand in one row then, and what is done to the slots can be told apart from them
(`GameBoy.Decoder.Rule.expand_of_fits`).
-/

namespace GameBoy.Decoder

variable {m : Type → Type} {α : Type}

/-! ### The order of the numbers -/

/-- **Going on from a number** leads to the numbers that begin with it. -/
theorem extend_mem_Ico (high : Nat) (bs : List Bool) :
    high * 2 ^ bs.length ≤ extend high bs ∧ extend high bs < (high + 1) * 2 ^ bs.length := by
  induction bs generalizing high with
  | nil => simp
  | cons b bs ih =>
    obtain ⟨lower, upper⟩ := ih (2 * high + b.toNat)
    have hb := b.toNat_le
    rw [extend_cons, List.length_cons, Nat.pow_succ]
    constructor
    · calc high * (2 ^ bs.length * 2) = 2 * high * 2 ^ bs.length := by ring
        _ ≤ (2 * high + b.toNat) * 2 ^ bs.length := Nat.mul_le_mul_right _ (Nat.le_add_right ..)
        _ ≤ _ := lower
    · calc extend (2 * high + b.toNat) bs
          < (2 * high + b.toNat + 1) * 2 ^ bs.length := upper
        _ ≤ (2 * (high + 1)) * 2 ^ bs.length := Nat.mul_le_mul_right _ (by omega)
        _ = (high + 1) * (2 ^ bs.length * 2) := by ring

/-- The numbers that a pattern leads to from a beginning. -/
theorem mem_Ico_of_mem_expansions {pattern : List Char} {high number : Nat} {f fields : Fields}
    (h : (number, fields) ∈ expansions pattern high f) :
    high * 2 ^ pattern.length ≤ number ∧ number < (high + 1) * 2 ^ pattern.length := by
  obtain ⟨bs, allowed, rfl, -⟩ := mem_expansions.mp h
  rw [allowed.length_eq]
  exact extend_mem_Ico high bs

/-- **The numbers that a pattern matches are enumerated in ascending order.** -/
theorem pairwise_expansions (pattern : List Char) (high : Nat) (f : Fields) :
    (expansions pattern high f).Pairwise (·.1 < ·.1) := by
  fun_induction expansions pattern high f with
  | case1 high f => exact List.pairwise_singleton ..
  | case2 rest high f ih => exact ih
  | case3 rest high f ih => exact ih
  | case4 c rest high f _ _ ih₀ ih₁ =>
    -- all that goes on with a zero comes before what goes on with a one
    refine List.pairwise_append.mpr ⟨ih₀, ih₁, ?_⟩
    intro x hx y hy
    exact Nat.lt_of_lt_of_le (mem_Ico_of_mem_expansions hx).2 (mem_Ico_of_mem_expansions hy).1

namespace Rule

/-- **The numbers that a rule matches**, in the order in which they are enumerated. -/
def matching (rule : Rule m α) : List Nat := rule.targets.map Prod.fst

theorem mem_matching {rule : Rule m α} {number : Nat} :
    number ∈ rule.matching ↔ rule.Matches number := by
  constructor
  · intro h
    obtain ⟨⟨_, fields⟩, hmem, rfl⟩ := List.mem_map.mp h
    exact (mem_targets.mp hmem).1
  · intro h
    exact List.mem_map.mpr ⟨_, mem_targets.mpr ⟨h, rfl⟩, rfl⟩

/-- The numbers come in ascending order. -/
theorem pairwise_matching (rule : Rule m α) : rule.matching.Pairwise (· < ·) :=
  List.pairwise_map.mpr (pairwise_expansions ..)

/-- There are two to the power of the letters of them. -/
theorem length_matching (rule : Rule m α) :
    rule.matching.length = 2 ^ letters rule.pattern.toList :=
  (List.length_map _).trans (length_expansions ..)

/-- The numbers come with their fields. -/
theorem targets_eq (rule : Rule m α) :
    rule.targets = rule.matching.map fun number => (number, rule.fieldsOf number) := by
  rw [matching, List.map_map]
  refine (List.map_id rule.targets).symm.trans (List.map_congr_left ?_)
  intro target h
  exact Prod.ext rfl (mem_targets.mp h).2

end Rule

/-! ### Slots overwritten -/

/-- **The slots with some entries put in**, each in the slot with its number. -/
def overwrite (slots : Array (Option α)) (made : List (Nat × α)) : Array (Option α) :=
  made.foldl (fun slots entry => slots.setIfInBounds entry.1 (some entry.2)) slots

@[simp] theorem size_overwrite (slots : Array (Option α)) (made : List (Nat × α)) :
    (overwrite slots made).size = slots.size := by
  induction made generalizing slots with
  | nil => rfl
  | cons entry made ih => exact (ih _).trans Array.size_setIfInBounds

/-- A slot that no entry is for stays as it was. -/
theorem getElem?_overwrite_of_forall_ne {made : List (Nat × α)} {s : Nat}
    (h : ∀ entry ∈ made, entry.1 ≠ s) (slots : Array (Option α)) :
    (overwrite slots made)[s]? = slots[s]? := by
  induction made generalizing slots with
  | nil => rfl
  | cons entry made ih =>
    obtain ⟨other, others⟩ := List.forall_mem_cons.mp h
    exact (ih others _).trans (Array.getElem?_setIfInBounds_ne other)

/-- **A slot that one entry is for** has this entry. -/
theorem getElem?_overwrite_of_mem {made : List (Nat × α)} (ascending : made.Pairwise (·.1 < ·.1))
    {entry : Nat × α} (h : entry ∈ made) {slots : Array (Option α)} (hs : entry.1 < slots.size) :
    (overwrite slots made)[entry.1]? = some (some entry.2) := by
  induction made generalizing slots with
  | nil => exact absurd h List.not_mem_nil
  | cons first made ih =>
    obtain ⟨above, ascending⟩ := List.pairwise_cons.mp ascending
    rcases List.mem_cons.mp h with rfl | h
    · -- what comes later goes to higher slots
      have kept := getElem?_overwrite_of_forall_ne (fun e he => (Nat.ne_of_lt (above e he)).symm)
        (slots.setIfInBounds entry.1 (some entry.2))
      exact kept.trans (Array.getElem?_setIfInBounds_self_of_lt hs)
    · exact ih ascending h (by rwa [Array.size_setIfInBounds])

/-! ### The rule -/

namespace Rule

variable [Monad m] [LawfulMonad m]

/-- **Filling slots is making entries and then putting them in.** -/
theorem fill_eq (rule : Rule m α) (numbers : List Nat) (slots : Array (Option α)) :
    rule.fill (numbers.map fun number => (number, rule.fieldsOf number)) slots =
      (fun entries => overwrite slots (numbers.zip entries)) <$>
        numbers.mapM fun number => rule.generate (rule.fieldsOf number) := by
  induction numbers generalizing slots with
  | nil => simp [fill, overwrite]
  | cons number numbers ih =>
    simp only [List.map_cons, fill, List.mapM_cons, map_bind, ih, bind_pure_comp,
      Functor.map_map]
    rfl

/-- **A rule whose pattern fits** calls its generator for the numbers it matches, one after the
other, and puts what that makes into the slots. -/
theorem expand_of_fits {rule : Rule m α} {size : Nat} {slots : Array (Option α)}
    (fits : Decoder.Fits size slots.size rule.pattern) :
    rule.expand size slots =
      (fun entries => (.ok rule.matching.length, overwrite slots (rule.matching.zip entries))) <$>
        rule.matching.mapM fun number => rule.generate (rule.fieldsOf number) := by
  have count : rule.targets.length = rule.matching.length := (List.length_map _).symm
  simp only [expand, fits.patternError?, count]
  rw [targets_eq, fill_eq, bind_pure_comp, Functor.map_map]

omit [LawfulMonad m] in
/-- **A rule whose pattern is at fault** does nothing. -/
theorem expand_of_patternError? (rule : Rule m α) {size : Nat} {slots : Array (Option α)}
    {error : TableError} (h : patternError? rule.pattern size slots.size = some error) :
    rule.expand size slots = pure (.error error, slots) := by
  simp only [expand, h]

/-- A rule whose pattern fits, with a log. -/
theorem run_expand_logged {rule : Rule m α} {size : Nat} {slots : Array (Option α)}
    (fits : Decoder.Fits size slots.size rule.pattern) (number : Nat) :
    ((rule.logged number).expand size slots).run [] =
      (fun result => (result, rule.calls number)) <$> rule.expand size slots := by
  have fits' : patternError? (rule.logged number).pattern size slots.size = none :=
    fits.patternError?
  simp only [expand, fits.patternError?, fits', StateT.run_bind, map_bind]
  change ((rule.logged number).fill rule.targets slots).run [] >>= _ = _
  rw [run_fill_logged, bind_map_left]
  refine bind_congr fun filled => ?_
  simp
  rfl

/-- **What a rule that fits does to slots**, when its generator may use a state. -/
structure Fills {σ : Type} (rule : Rule (StateM σ) α) (number : Nat)
    (slots filled : Array (Option α)) (log : List Call) (s s' : σ) : Prop where
  /-- The generator is called for the numbers that match, the lowest first, and nothing else. -/
  calls : log = rule.matching.map fun t => ⟨number, rule.fieldsOf t⟩
  size : filled.size = slots.size
  /-- What a call makes is in the slot with its number afterwards. -/
  made : ∃ entries,
    (rule.matching.mapM fun t => rule.generate (rule.fieldsOf t)).run s = (entries, s') ∧
      ∀ k (hk : k < rule.matching.length), ∃ entry, entries[k]? = some entry ∧
        filled[rule.matching[k]]? = some (some entry)
  /-- All other slots are as they were, filled or empty. -/
  others : ∀ t, ¬rule.Matches t → filled[t]? = slots[t]?

end Rule

/-- **The numbers that a pattern matches are slots** if the pattern fits. -/
theorem Fits.lt_of_matches {size slots number : Nat} {pattern : String}
    (fits : Fits size slots pattern) (h : Matches pattern.toList number) :
    number < size ∧ number < slots :=
  ⟨Nat.lt_of_lt_of_le h.1 fits.size, Nat.lt_of_lt_of_le h.1 fits.slots⟩

/-- **The check finds what is wrong with a pattern**, and nothing else. -/
theorem patternError?_eq_some_iff {size slots : Nat} {pattern : String} {error : TableError} :
    patternError? pattern size slots = some error ↔ Fault size slots pattern error := by
  constructor
  · intro h
    have spec := patternError?_spec pattern size slots
    rwa [h] at spec
  · rintro (⟨h, hb, hc⟩ | ⟨hp, hw⟩)
    · rename_i before after found
      have first : pattern.toList.find? (fun c => !isPatternChar c) = some found :=
        List.find?_eq_some_iff_append.mpr
          ⟨by simp [hc], before, after, h, fun c hmem => by simp [hb c hmem]⟩
      simp only [patternError?, first]
    · have all : pattern.toList.find? (fun c => !isPatternChar c) = none := by simpa using hp
      simp only [patternError?, all, indexBits, span_eq, if_pos hw]

/-- **A pattern of the right characters** is at fault if it is too wide. -/
theorem fault_tooWide_iff {size slots : Nat} {pattern : String}
    (good : ∀ c ∈ pattern.toList, isPatternChar c = true) :
    Fault size slots pattern (.tooWide pattern size) ↔
      64 ≤ pattern.toList.length ∨ size < 2 ^ pattern.toList.length ∨
        slots < 2 ^ pattern.toList.length := by
  refine ⟨fun fault => ?_, .tooWide good⟩
  cases fault with
  | tooWide _ hw => exact hw

/-! ### The rule, with a log -/

/-- As many calls make as many entries. -/
theorem length_run_mapM {σ : Type} (f : Nat → StateM σ α) (numbers : List Nat) (s : σ) :
    ((numbers.mapM f).run s).1.length = numbers.length := by
  induction numbers generalizing s with
  | nil => rfl
  | cons number numbers ih =>
    rw [List.mapM_cons]
    exact congrArg Nat.succ (ih _)

namespace Rule

variable {σ : Type} {size : Nat} {slots : Array (Option α)}

/-- **A rule whose pattern fits fills the slots**, and keeping a log makes no difference. -/
theorem fills_of_fits (rule : Rule (StateM σ) α)
    (fits : Decoder.Fits size slots.size rule.pattern) (number : Nat) (s : σ) :
    ∃ filled s', (rule.expand size slots).run s = ((.ok rule.matching.length, filled), s') ∧
      (((rule.logged number).expand size slots).run []).run s =
        (((.ok rule.matching.length, filled), rule.calls number), s') ∧
      rule.Fills number slots filled (rule.calls number) s s' := by
  let made := (rule.matching.mapM fun t => rule.generate (rule.fieldsOf t)).run s
  have length : made.1.length = rule.matching.length := length_run_mapM _ rule.matching s
  have ascending : (rule.matching.zip made.1).Pairwise (·.1 < ·.1) := by
    refine List.pairwise_map.mp ?_
    rw [List.map_fst_zip (Nat.le_of_eq length.symm)]
    exact rule.pairwise_matching
  have plain : (rule.expand size slots).run s =
      ((.ok rule.matching.length, overwrite slots (rule.matching.zip made.1)), made.2) := by
    rw [expand_of_fits fits]
    rfl
  refine ⟨overwrite slots (rule.matching.zip made.1), made.2, plain, ?_, ?_⟩
  · rw [run_expand_logged fits, StateT.run_map, plain]
    rfl
  · refine ⟨?_, size_overwrite .., ⟨made.1, rfl, ?_⟩, ?_⟩
    · rw [Rule.calls, targets_eq, List.map_map]
      rfl
    · intro k hk
      have hk' : k < made.1.length := by rwa [length]
      refine ⟨made.1[k], List.getElem?_eq_getElem hk', ?_⟩
      have here : (rule.matching[k], made.1[k]) ∈ rule.matching.zip made.1 :=
        List.mem_iff_getElem.mpr ⟨k, by simp [length, hk], List.getElem_zip⟩
      have inside := (fits.lt_of_matches (mem_matching.mp (List.getElem_mem hk))).2
      exact getElem?_overwrite_of_mem ascending here inside
    · intro t ht
      refine getElem?_overwrite_of_forall_ne (fun entry hentry => ?_) slots
      rintro rfl
      exact ht (mem_matching.mp (List.of_mem_zip hentry).1)

/-- **A rule whose pattern is at fault does nothing**, with a log or without. -/
theorem run_of_patternError? (rule : Rule (StateM σ) α) {error : TableError}
    (h : patternError? rule.pattern size slots.size = some error) (number : Nat) (s : σ) :
    (rule.expand size slots).run s = ((.error error, slots), s) ∧
      (((rule.logged number).expand size slots).run []).run s =
        (((.error error, slots), []), s) :=
  ⟨congrArg (·.run s) (rule.expand_of_patternError? h),
    congrArg (fun code => (code.run []).run s) ((rule.logged number).expand_of_patternError? h)⟩

end Rule

/-- **What a rule does to the slots it is applied to**, whatever number of them there is, and
whichever of them are filled. Keeping a log of the calls makes no difference to the result or to
what the generator does to its state. An error is reported if and only if the pattern is at fault,
which for a pattern of the right characters means that it is too wide for the table or for the
slots; nothing has been done then. Otherwise the rule reports how many entries it has made: as many
as there are ways to fill in the letters of its pattern. -/
theorem expand_ends {σ : Type} (rule : Rule (StateM σ) α) (number size : Nat)
    (slots : Array (Option α)) (s : σ) :
    let ran := (((rule.logged number).expand size slots).run []).run s
    let result := ran.1.1.1
    let filled := ran.1.1.2
    let log := ran.1.2
    let width := rule.pattern.toList.length
    (rule.expand size slots).run s = (ran.1.1, ran.2) ∧
    (∀ error, result = .error error ↔ Fault size slots.size rule.pattern error) ∧
    ((∀ c ∈ rule.pattern.toList, isPatternChar c = true) →
      (result = .error (.tooWide rule.pattern size) ↔
        64 ≤ width ∨ size < 2 ^ width ∨ slots.size < 2 ^ width)) ∧
    (∀ error, result = .error error → filled = slots ∧ log = [] ∧ ran.2 = s) ∧
    ∀ n, result = .ok n →
      n = 2 ^ letters rule.pattern.toList ∧ log.length = n ∧
      rule.matching.Pairwise (· < ·) ∧
      (∀ t, t ∈ rule.matching ↔ rule.Matches t) ∧
      (∀ t, rule.Matches t → t < size ∧ t < slots.size) ∧
      rule.Fills number slots filled log s ran.2 := by
  intro ran result filled log width
  cases hp : patternError? rule.pattern size slots.size with
  | some fault =>
    obtain ⟨plain, logged⟩ := rule.run_of_patternError? hp number s
    have only (error : TableError) :
        (Except.error fault : Except TableError Nat) = .error error ↔
          Fault size slots.size rule.pattern error := by
      rw [← patternError?_eq_some_iff, hp, Option.some.injEq, Except.error.injEq]
    have hrun : ran = (((.error fault, slots), []), s) := logged
    simp only [result, filled, log, hrun]
    exact ⟨plain, only, fun good => (only _).trans (fault_tooWide_iff good), by simp, nofun⟩
  | none =>
    have fits := patternError?_spec rule.pattern size slots.size
    rw [hp] at fits
    have no_fault (error : TableError) : ¬Fault size slots.size rule.pattern error :=
      fun fault => fault.not_fits fits
    obtain ⟨full, s', plain, logged, fills⟩ := rule.fills_of_fits fits number s
    have hrun : ran = (((.ok rule.matching.length, full), rule.calls number), s') := logged
    simp only [result, filled, log, hrun]
    refine ⟨plain, fun error => iff_of_false nofun (no_fault error),
      fun good => iff_of_false nofun ((fault_tooWide_iff good).not.mp (no_fault _)), nofun, ?_⟩
    rintro n ⟨⟩
    refine ⟨rule.length_matching, ?_, rule.pairwise_matching, fun t => Rule.mem_matching,
      fun t => fits.lt_of_matches, fills⟩
    rw [fills.calls, List.length_map]

/-- A rule that numbers its entries. -/
def numberingRule : Rule (StateM Nat) Nat where
  pattern := "a1"
  generate fields := do
    modify (· + 1)
    return 10 * (← get) + fields.get 'a'

/-- The rule on five slots, more than the table has, one of those it fills being filled already; and
on three slots, too few for it. -/
theorem expand_ends_numberingRule :
    let run slots := (((numberingRule.logged 0).expand 4 slots).run []).run 0
    (run #[some 7, none, some 8, some 9, none]).1.1 =
      (.ok 2, #[some 7, some 10, some 8, some 21, none]) ∧
    (run #[some 7, none, some 8, some 9, none]).1.2.length = 2 ∧
    (∀ t, numberingRule.Matches t → t < 4 ∧ t < 5) ∧
    (run #[none, some 7, none]).1.1 = (.error (.tooWide "a1" 4), #[none, some 7, none]) ∧
    (run #[none, some 7, none]).1.2 = [] := by
  obtain ⟨-, -, -, -, full⟩ :=
    expand_ends numberingRule 0 4 #[some 7, none, some 8, some 9, none] 0
  obtain ⟨-, -, wide, none_done, -⟩ := expand_ends numberingRule 0 4 #[none, some 7, none] 0
  obtain ⟨-, calls, -, -, inside, -⟩ := full 2 rfl
  have pattern : numberingRule.pattern.toList = ['a', '1'] := by decide
  have chars : ∀ c ∈ numberingRule.pattern.toList, isPatternChar c = true := by
    rw [pattern]
    exact List.forall_mem_cons.mpr ⟨by decide, List.forall_mem_singleton.mpr (by decide)⟩
  have narrow := (wide chars).mpr (by decide)
  obtain ⟨kept, silent, -⟩ := none_done _ narrow
  exact ⟨by decide, calls, inside, Prod.ext narrow kept, silent⟩

end GameBoy.Decoder
