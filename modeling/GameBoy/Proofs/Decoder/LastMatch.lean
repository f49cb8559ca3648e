import GameBoy.Proofs.Decoder.Expansion

/-!
# The last rule that matches decides

A table compiled from rules has in every slot what the last rule that matches the number of the slot
makes of its fields: `GameBoy.Decoder.compile_ok`. Nothing is assumed about the rules beyond their
making a table at all, and generators may have effects; what a generator makes is then any value
that it can return.

The proof goes through the loops of the compiler from the inside out. Filling the slots for one rule
(`GameBoy.Decoder.Rule.fill_spec`) replaces what its pattern matches and nothing else, and so does
the rule as a whole (`GameBoy.Decoder.Rule.expand_spec`). Rules applied in turn then leave in each
slot either what the last match has put there or, where no rule matches, what was there before
(`GameBoy.Decoder.expandAll_spec`). In the beginning this was nothing, and a table with an empty
slot is no table.
-/

namespace GameBoy.Decoder

open MonadAttach LawfulMonadAttach

variable {m : Type → Type} {α : Type}

/-- Whether a rule is for a number. -/
def Rule.Matches (rule : Rule m α) (number : Nat) : Prop :=
  Decoder.Matches rule.pattern.toList number

/-- The fields that a rule is given for a number. -/
def Rule.fieldsOf (rule : Rule m α) (number : Nat) : Fields :=
  Decoder.fieldsOf rule.pattern.toList number

/-- **The rule that decides about a number**: it matches, and none of those after it does. -/
def Decides (rules : List (Rule m α)) (rule : Rule m α) (number : Nat) : Prop :=
  ∃ before after, rules = before ++ rule :: after ∧ rule.Matches number ∧
    ∀ r ∈ after, ¬r.Matches number

/-- A rule that decides still does when there are more rules before it. -/
theorem Decides.cons {rules : List (Rule m α)} {rule : Rule m α} {number : Nat}
    (h : Decides rules rule number) (first : Rule m α) : Decides (first :: rules) rule number := by
  obtain ⟨before, after, rfl, hm, ha⟩ := h
  exact ⟨first :: before, after, rfl, hm, ha⟩

variable [Monad m] [LawfulMonad m] [MonadAttach m] [LawfulMonadAttach m]

/-! ### One rule -/

/-- **Filling replaces what is on the list**, with something that the rule makes of the fields
there, and nothing else. -/
theorem Rule.fill_spec {rule : Rule m α} {targets : List (Nat × Fields)}
    {slots filled : Array (Option α)} (h : CanReturn (rule.fill targets slots) filled) :
    filled.size = slots.size ∧ ∀ s < slots.size,
      (∃ fields entry, (s, fields) ∈ targets ∧ CanReturn (rule.generate fields) entry ∧
          filled[s]? = some (some entry)) ∨
        (∀ fields, (s, fields) ∉ targets) ∧ filled[s]? = slots[s]? := by
  induction targets generalizing slots with
  | nil =>
    obtain rfl := eq_of_canReturn_pure h
    exact ⟨rfl, fun s _ => .inr ⟨fun _ => List.not_mem_nil, rfl⟩⟩
  | cons target rest ih =>
    obtain ⟨slot, fields⟩ := target
    obtain ⟨entry, hentry, hrest⟩ := canReturn_bind_imp' h
    obtain ⟨hsize, hslots⟩ := ih hrest
    rw [Array.size_setIfInBounds] at hsize hslots
    refine ⟨hsize, ?_⟩
    intro s hs
    rcases hslots s hs with ⟨fields', entry', hmem, hentry', hs'⟩ | ⟨hnot, hs'⟩
    · -- the slot is filled again later
      exact .inl ⟨fields', entry', .tail _ hmem, hentry', hs'⟩
    · by_cases heq : slot = s
      · subst heq
        rw [Array.getElem?_setIfInBounds_self_of_lt hs] at hs'
        exact .inl ⟨fields, entry, .head _, hentry, hs'⟩
      · rw [Array.getElem?_setIfInBounds_ne heq] at hs'
        refine .inr ⟨?_, hs'⟩
        intro fields' hmem
        rcases List.mem_cons.mp hmem with hmem | hmem
        · exact heq (congrArg Prod.fst hmem).symm
        · exact hnot fields' hmem

/-- **A rule replaces what it matches**, with something that it makes of the fields there, and
nothing else. -/
theorem Rule.expand_spec {rule : Rule m α} {size count : Nat} {slots filled : Array (Option α)}
    (h : CanReturn (rule.expand size slots) (.ok count, filled)) :
    filled.size = slots.size ∧ ∀ s < slots.size,
      (rule.Matches s ∧ ∃ entry, CanReturn (rule.generate (rule.fieldsOf s)) entry ∧
          filled[s]? = some (some entry)) ∨
        ¬rule.Matches s ∧ filled[s]? = slots[s]? := by
  unfold expand at h
  split at h
  · cases eq_of_canReturn_pure h
  · obtain ⟨filled', hfill, hpure⟩ := canReturn_bind_imp' h
    cases eq_of_canReturn_pure hpure
    obtain ⟨hsize, hslots⟩ := fill_spec hfill
    refine ⟨hsize, ?_⟩
    intro s hs
    rcases hslots s hs with ⟨fields, entry, hmem, hentry, hs'⟩ | ⟨hnot, hs'⟩
    · obtain ⟨hm, rfl⟩ := mem_targets.mp hmem
      exact .inl ⟨hm, entry, hentry, hs'⟩
    · exact .inr ⟨fun hm => hnot _ (mem_targets.mpr ⟨hm, rfl⟩), hs'⟩

/-! ### Rules in turn -/

/-- **Rules in turn leave in each slot what the last match has put there**, or what was there
before if none matches. -/
theorem expandAll_spec {size : Nat} {rules : List (Rule m α)} {slots filled : Array (Option α)}
    (h : CanReturn (expandAll size rules slots) (.ok filled)) :
    filled.size = slots.size ∧ ∀ s < slots.size,
      (∃ rule entry, Decides rules rule s ∧ CanReturn (rule.generate (rule.fieldsOf s)) entry ∧
          filled[s]? = some (some entry)) ∨
        (∀ rule ∈ rules, ¬rule.Matches s) ∧ filled[s]? = slots[s]? := by
  induction rules generalizing slots with
  | nil =>
    cases eq_of_canReturn_pure h
    exact ⟨rfl, fun s _ => .inr ⟨fun _ hr => absurd hr List.not_mem_nil, rfl⟩⟩
  | cons rule rest ih =>
    obtain ⟨⟨_ | count, slots'⟩, hexpand, hrest⟩ := canReturn_bind_imp' h
    · cases eq_of_canReturn_pure hrest
    obtain ⟨hsize, hslots⟩ := Rule.expand_spec hexpand
    obtain ⟨hsize', hslots'⟩ := ih hrest
    refine ⟨hsize'.trans hsize, ?_⟩
    intro s hs
    rcases hslots' s (hsize ▸ hs) with ⟨rule', entry, hd, hentry, hs'⟩ | ⟨hnot, hs'⟩
    · -- a later rule decides
      exact .inl ⟨rule', entry, hd.cons rule, hentry, hs'⟩
    · rcases hslots s hs with ⟨hm, entry, hentry, hs''⟩ | ⟨hm, hs''⟩
      · exact .inl ⟨rule, entry, ⟨[], rest, rfl, hm, hnot⟩, hentry, hs'.trans hs''⟩
      · refine .inr ⟨?_, hs'.trans hs''⟩
        intro r hr
        rcases List.mem_cons.mp hr with rfl | hr
        · exact hm
        · exact hnot r hr

/-! ### The table -/

omit [Monad m] [LawfulMonad m] [MonadAttach m] [LawfulMonadAttach m] in
/-- **A table has no empty slots.** -/
theorem entries_ok {slot : Nat} {slots : List (Option α)} {table : List α}
    (h : entries slot slots = .ok table) : slots = table.map some := by
  induction slots generalizing slot table with
  | nil =>
    cases h
    rfl
  | cons entry? rest ih =>
    cases entry? with
    | none => cases h
    | some entry =>
      rw [entries] at h
      cases hrest : entries (slot + 1) rest with
      | error e =>
        rw [hrest] at h
        cases h
      | ok table' =>
        rw [hrest] at h
        cases h
        rw [ih hrest, List.map_cons]

omit [Monad m] [LawfulMonad m] [MonadAttach m] [LawfulMonadAttach m] in
/-- The slots a table has come from, full ones all of them. -/
theorem toArray_entries_ok {slots : Array (Option α)} {table : Array α}
    (h : List.toArray <$> entries 0 slots.toList = .ok table) : slots = table.map some := by
  cases hl : entries 0 slots.toList with
  | error e =>
    rw [hl] at h
    cases h
  | ok l =>
    rw [hl] at h
    cases h
    rw [List.map_toArray, ← entries_ok hl, Array.toArray_toList]

/-- **The last rule that matches decides.** A table compiled from rules has the size that was asked
for, and in every slot there is what the generator of the last rule that matches has made of the
fields. The value of a field is the number formed by the bits under its letter, and zero if the
pattern lacks the letter. -/
theorem compile_ok {size : Nat} {rules : List (Rule m α)} {table : Array α}
    (h : CanReturn (compile size rules) (.ok table)) :
    table.size = size ∧ ∀ s (hs : s < table.size), ∃ rule, Decides rules rule s ∧
      CanReturn (rule.generate (rule.fieldsOf s)) table[s] ∧
      ∀ letter,
        (rule.fieldsOf s).get letter =
          extend 0 (bitsUnder letter rule.pattern.toList (bits rule.pattern.toList.length s)) ∧
        (letter ∉ rule.pattern.toList → (rule.fieldsOf s).get letter = 0) := by
  obtain ⟨_ | slots, hall, hpure⟩ := canReturn_bind_imp' h
  · cases eq_of_canReturn_pure hpure
  obtain rfl := toArray_entries_ok (eq_of_canReturn_pure hpure)
  obtain ⟨hsize, hspec⟩ := expandAll_spec hall
  rw [Array.size_replicate] at hsize hspec
  rw [Array.size_map] at hsize
  refine ⟨hsize, ?_⟩
  intro s hs
  have hslot : (table.map some)[s]? = some (some table[s]) := by
    rw [Array.getElem?_map, Array.getElem?_eq_getElem hs, Option.map_some]
  rcases hspec s (hsize ▸ hs) with ⟨rule, entry, hd, hentry, hget⟩ | ⟨-, hget⟩
  · obtain rfl : table[s] = entry := by simpa [hslot] using hget
    refine ⟨rule, hd, hentry, ?_⟩
    intro letter
    refine ⟨get_fieldsOf .., ?_⟩
    intro hnot
    rw [Rule.fieldsOf, get_fieldsOf, bitsUnder_eq_nil hnot, extend_nil]
  · -- no rule matches, and the slot is as empty as it was in the beginning
    rw [hslot, Array.getElem?_replicate, if_pos (hsize ▸ hs)] at hget
    simp at hget

/-- Rules of which the second overrides the first for odd numbers. -/
def parityRules : List (Rule Id Nat) :=
  [⟨"ab", fun f => pure (10 + f.get 'a')⟩, ⟨"c1", fun f => pure (20 + f.get 'c')⟩]

/-- The table of these rules, whose last entry some rule that decides about it has made. -/
theorem compile_parityRules :
    CanReturn (compile 4 parityRules) (.ok #[10, 20, 11, 21]) ∧
      ∃ rule, Decides parityRules rule 3 ∧ CanReturn (rule.generate (rule.fieldsOf 3)) 21 := by
  have h : CanReturn (compile 4 parityRules) (.ok #[10, 20, 11, 21]) := by
    change Id.run _ = _
    decide
  obtain ⟨rule, hd, hentry, -⟩ := (compile_ok h).2 3 (by decide)
  exact ⟨h, rule, hd, hentry⟩

end GameBoy.Decoder
