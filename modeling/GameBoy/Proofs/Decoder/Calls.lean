import GameBoy.Proofs.Decoder.Expansion

/-!
# What generators are called for

A generator is called once for every number that the pattern of its rule matches, and so as often as
its fields can be filled in: two to the power of the letters in the pattern
(`GameBoy.Decoder.length_expansions`).

To see the calls, each rule is given a number and its generator is made to keep a log
(`GameBoy.Decoder.logged`). The log is a part of the state beside whatever effects the generators
have, so that it disturbs nothing, and everything in it comes from the patterns alone
(`GameBoy.Decoder.run_fillAll_logged`): it does not matter what the generators return.
-/

namespace GameBoy.Decoder

variable {m : Type → Type} {α : Type}

/-! ### Letters -/

/-- **How many characters of a pattern are bits of fields.** Where all of its characters may stand
in a pattern these are its letters. -/
def letters (pattern : List Char) : Nat := pattern.countP fun c => !isFixed c

/-- **Every letter doubles the numbers that a pattern matches.** -/
theorem length_expansions (pattern : List Char) (high : Nat) (f : Fields) :
    (expansions pattern high f).length = 2 ^ letters pattern := by
  fun_induction expansions pattern high f with
  | case1 high f => rfl
  | case2 rest high f ih => exact ih
  | case3 rest high f ih => exact ih
  | case4 c rest high f h0 h1 ih₀ ih₁ =>
    have letter : isFixed c = false := by simpa [isFixed] using And.intro h0 h1
    have more : letters (c :: rest) = letters rest + 1 :=
      List.countP_cons_of_pos (by simp [letter])
    rw [List.length_append, ih₀, ih₁, more, Nat.pow_succ]
    omega

/-! ### The log -/

/-- **A call of a generator**: the number of the rule it is from, and the fields it was given. -/
structure Call where
  rule : Nat
  fields : Fields
  deriving DecidableEq, Repr

/-- How many calls of a rule there are in a log. -/
def callCount (log : List Call) (number : Nat) : Nat := log.countP (·.rule == number)

/-- The calls that a rule makes when it is applied. -/
def Rule.calls (rule : Rule m α) (number : Nat) : List Call :=
  rule.targets.map fun target => ⟨number, target.2⟩

/-- **The calls that rules make** when they are applied in turn, numbered from `first` on. -/
def calls : (first : Nat) → List (Rule m α) → List Call
  | _, [] => []
  | first, rule :: rest => rule.calls first ++ calls (first + 1) rest

/-- **How often a rule with a given number is called** when all of some rules are applied: once for
every way to fill in its letters, and not at all if there is no such rule. -/
def callsDue (rules : List (Rule m α)) (number : Nat) : Nat :=
  rules[number]?.elim 0 fun rule => 2 ^ letters rule.pattern.toList

/-- How often a rule is called when it is applied. -/
theorem Rule.callCount_calls (rule : Rule m α) (number i : Nat) :
    callCount (rule.calls number) i =
      if i = number then 2 ^ letters rule.pattern.toList else 0 := by
  rw [callCount, Rule.calls, List.countP_map]
  split
  · subst i
    rw [List.countP_eq_length.mpr (by simp)]
    exact length_expansions ..
  · rename_i other
    exact List.countP_eq_zero.mpr fun _ _ => by simpa using Ne.symm other

theorem callCount_append (log log' : List Call) (i : Nat) :
    callCount (log ++ log') i = callCount log i + callCount log' i :=
  List.countP_append

/-- Numbers below those of the rules are not in the log. -/
theorem callCount_calls_of_lt {first i : Nat} (h : i < first) (rules : List (Rule m α)) :
    callCount (calls first rules) i = 0 := by
  induction rules generalizing first with
  | nil => rfl
  | cons rule rest ih =>
    rw [calls, callCount_append, rule.callCount_calls, if_neg (Nat.ne_of_lt h), ih (by omega)]

/-- **Each rule is called as often as it is due** when rules are applied in turn. -/
theorem callCount_calls (first : Nat) (rules : List (Rule m α)) (i : Nat) :
    callCount (calls first rules) (first + i) = callsDue rules i := by
  induction rules generalizing first i with
  | nil => rfl
  | cons rule rest ih =>
    rw [calls, callCount_append, rule.callCount_calls]
    cases i with
    | zero =>
      have later : callCount (calls (first + 1) rest) (first + 0) = 0 :=
        callCount_calls_of_lt (by omega) rest
      rw [if_pos (Nat.add_zero first), later]
      rfl
    | succ i =>
      have shift : first + (i + 1) = first + 1 + i := by omega
      rw [if_neg (by omega), shift, ih, Nat.zero_add, callsDue, callsDue, List.getElem?_cons_succ]

section Logged

variable [Monad m]

/-- **A rule whose generator keeps a log** of what it is called for, and otherwise does what the
generator of the rule does. -/
def Rule.logged (rule : Rule m α) (number : Nat) : Rule (StateT (List Call) m) α where
  pattern := rule.pattern
  generate fields := do
    modify (· ++ [⟨number, fields⟩])
    StateT.lift (rule.generate fields)

/-- **Rules that keep a log**, numbered from `first` on. -/
def logged : (first : Nat) → List (Rule m α) → List (Rule (StateT (List Call) m) α)
  | _, [] => []
  | first, rule :: rest => rule.logged first :: logged (first + 1) rest

theorem logged_append (first : Nat) (before after : List (Rule m α)) :
    logged first (before ++ after) =
      logged first before ++ logged (first + before.length) after := by
  induction before generalizing first with
  | nil => rfl
  | cons rule rest ih =>
    have shift : first + 1 + rest.length = first + (rest.length + 1) := by omega
    simp only [List.cons_append, logged, ih, List.length_cons, shift]

/-- A log is kept about the same patterns. -/
theorem exists_of_mem_logged {first : Nat} {rules : List (Rule m α)}
    {rule : Rule (StateT (List Call) m) α} (h : rule ∈ logged first rules) :
    ∃ r ∈ rules, r.pattern = rule.pattern := by
  induction rules generalizing first with
  | nil => exact absurd h List.not_mem_nil
  | cons r rest ih =>
    rcases List.mem_cons.mp h with rfl | h
    · exact ⟨r, List.mem_cons_self, rfl⟩
    · obtain ⟨r', hr', same⟩ := ih h
      exact ⟨r', List.mem_cons_of_mem _ hr', same⟩

/-- **Rules applied in turn**, none of them being at fault. -/
def fillAll (rules : List (Rule m α)) (slots : Array (Option α)) : m (Array (Option α)) :=
  rules.foldlM (fun slots rule => rule.fill rule.targets slots) slots

variable [LawfulMonad m]

/-- Filling the slots for one rule, with a log. -/
theorem Rule.run_fill_logged (rule : Rule m α) (number : Nat) (targets : List (Nat × Fields))
    (slots : Array (Option α)) (log : List Call) :
    ((rule.logged number).fill targets slots).run log =
      (fun filled => (filled, log ++ targets.map fun t => ⟨number, t.2⟩)) <$>
        rule.fill targets slots := by
  induction targets generalizing slots log with
  | nil => simp [fill]
  | cons target rest ih =>
    simp only [fill, logged, StateT.run_bind, StateT.run_modify, StateT.run_lift, pure_bind,
      bind_assoc, map_bind, List.map_cons]
    refine bind_congr fun entry => ?_
    exact (ih _ _).trans (by rw [List.append_assoc]; rfl)

/-- **The log tells of the patterns.** Rules applied in turn with a log do what they do without, and
the log goes on by the calls that the patterns ask for. -/
theorem run_fillAll_logged (first : Nat) (rules : List (Rule m α)) (slots : Array (Option α))
    (log : List Call) :
    (fillAll (logged first rules) slots).run log =
      (fun filled => (filled, log ++ calls first rules)) <$> fillAll rules slots := by
  induction rules generalizing first slots log with
  | nil => simp [fillAll, logged, calls]
  | cons rule rest ih =>
    simp only [fillAll, logged, calls, List.foldlM_cons, StateT.run_bind, map_bind]
    change ((rule.logged first).fill rule.targets slots).run log >>= _ = _
    rw [Rule.run_fill_logged, bind_map_left]
    refine bind_congr fun filled => ?_
    rw [← List.append_assoc]
    exact ih (first + 1) filled _

end Logged

end GameBoy.Decoder
