import GameBoy.Bus.Ram
import GameBoy.Proofs.Debugger.Hold
import GameBoy.Proofs.Session.Moments
import Mathlib.Data.List.Basic
import Mathlib.Data.List.Induction

/-!
# Breakpoints over a session

The breakpoints that a driver finds listed are those it has added and not taken away since, however
much has been done in between. This is a statement about the list of actions alone
(`GameBoy.Breakpoint.InForce`), and no machine comes into it: nothing but the three orders that are
about breakpoints changes them (`GameBoy.Machine.breakpoints_act`), not even the steps that are
trapped by one.

The list has its order from the breakpoints themselves (`GameBoy.Breakpoint.Before`), which leaves
one list for every set of them (`GameBoy.Breakpoints.toList_eq_of_mem_iff`).
-/

namespace GameBoy

/-! ### Sets of breakpoints -/

namespace Breakpoint

/-- The place of a kind of breakpoints among all kinds. -/
def rank : BreakpointKind → Nat
  | .execute => 0
  | .read => 1
  | .write => 2

/-- **The order in which breakpoints are listed**: by what they wait for, and by address among those
that wait for the same. -/
def Before (b b' : Breakpoint) : Prop :=
  rank b.kind < rank b'.kind ∨ b.kind = b'.kind ∧ b.address < b'.address

theorem Before.asymm {b b' : Breakpoint} (h : b.Before b') : ¬b'.Before b := by
  rintro (h' | ⟨same', h'⟩) <;> rcases h with h | ⟨same, h⟩
  · exact Nat.lt_asymm h h'
  · rw [same] at h'
    exact Nat.lt_irrefl _ h'
  · rw [same'] at h
    exact Nat.lt_irrefl _ h
  · exact UInt16.lt_asymm h h'

theorem Before.ne {b b' : Breakpoint} (h : b.Before b') : b ≠ b' := by
  rintro rfl
  exact h.asymm h

end Breakpoint

namespace Breakpoints

variable {s : Breakpoints} {b b' : Breakpoint}

/-- **The kinds are kept apart.** -/
theorem ofKind_setKind (s : Breakpoints) (kind kind' : BreakpointKind) (addresses : AddressSet) :
    (s.setKind kind addresses).ofKind kind' =
      if kind' = kind then addresses else s.ofKind kind' := by
  cases kind <;> cases kind' <;> rfl

@[simp] theorem mem_insert : b' ∈ s.insert b ↔ b' = b ∨ b' ∈ s := by
  obtain ⟨kind, a⟩ := b
  obtain ⟨kind', a'⟩ := b'
  change a' ∈ (s.setKind kind _).ofKind kind' ↔ _ ∨ a' ∈ s.ofKind kind'
  rw [ofKind_setKind, Breakpoint.mk.injEq]
  by_cases same : kind' = kind
  · rw [if_pos same, AddressSet.mem_insert, same]
    simp
  · simp [same]

@[simp] theorem mem_erase : b' ∈ s.erase b ↔ b' ∈ s ∧ b' ≠ b := by
  obtain ⟨kind, a⟩ := b
  obtain ⟨kind', a'⟩ := b'
  change a' ∈ (s.setKind kind _).ofKind kind' ↔ a' ∈ s.ofKind kind' ∧ _
  rw [ofKind_setKind, ne_eq, Breakpoint.mk.injEq]
  by_cases same : kind' = kind
  · rw [if_pos same, AddressSet.mem_erase, same]
    simp
  · simp [same]

/-- **All breakpoints are listed**, and nothing else. -/
theorem mem_toList : b ∈ s.toList ↔ b ∈ s := by
  obtain ⟨kind, a⟩ := b
  change _ ↔ a ∈ (s.ofKind kind).toList
  cases kind <;> simp [toList, ofKind]

/-- **The list is in order.** -/
theorem pairwise_toList (s : Breakpoints) : s.toList.Pairwise Breakpoint.Before := by
  have kind (kind : BreakpointKind) (addresses : AddressSet) :
      (addresses.toList.map (⟨kind, ·⟩)).Pairwise Breakpoint.Before :=
    List.pairwise_map.mpr (addresses.ascending.imp fun h => .inr ⟨rfl, h⟩)
  -- within a kind the addresses decide, and between kinds there is nothing to decide
  simp only [toList, List.pairwise_append, List.mem_append, List.mem_map]
  refine ⟨⟨kind _ _, kind _ _, ?_⟩, kind _ _, ?_⟩
  · rintro _ ⟨a, -, rfl⟩ _ ⟨a', -, rfl⟩
    exact .inl Nat.zero_lt_one
  · rintro _ (⟨a, -, rfl⟩ | ⟨a, -, rfl⟩) _ ⟨a', -, rfl⟩
    · exact .inl Nat.zero_lt_two
    · exact .inl Nat.one_lt_two

theorem nodup_toList (s : Breakpoints) : s.toList.Nodup :=
  s.pairwise_toList.imp Breakpoint.Before.ne

/-- **A set of breakpoints has one list**, however it came about. -/
theorem toList_eq_of_mem_iff {s' : Breakpoints} (h : ∀ b, b ∈ s' ↔ b ∈ s) :
    s'.toList = s.toList := by
  have perm : s'.toList.Perm s.toList :=
    (List.perm_ext_iff_of_nodup s'.nodup_toList s.nodup_toList).mpr fun b => by
      rw [mem_toList, mem_toList, h]
  refine perm.eq_of_pairwise (fun b b' _ _ hb hb' => ?_) s'.pairwise_toList s.pairwise_toList
  exact absurd hb' hb.asymm

end Breakpoints

/-! ### Actions -/

/-- **A breakpoint that is in force after some actions**: it has been added, and has not been taken
away since, neither by itself nor with all others. -/
def Breakpoint.InForce (b : Breakpoint) (actions : List Action) : Prop :=
  ∃ earlier later, actions = earlier ++ .addBreakpoint b :: later ∧
    .removeBreakpoint b ∉ later ∧ .clearBreakpoints ∉ later

theorem Breakpoint.not_inForce_nil (b : Breakpoint) : ¬b.InForce [] := by
  rintro ⟨earlier, later, h, -⟩
  exact absurd h (by simp)

/-- **One action more** puts a breakpoint in force, or leaves it so. -/
theorem Breakpoint.inForce_concat {b : Breakpoint} {actions : List Action} {action : Action} :
    b.InForce (actions ++ [action]) ↔ action = .addBreakpoint b ∨
      b.InForce actions ∧ action ≠ .removeBreakpoint b ∧ action ≠ .clearBreakpoints := by
  constructor
  · rintro ⟨earlier, later, h, kept, kept'⟩
    -- either it is this action that adds the breakpoint, or it is among those after that
    obtain rfl | ⟨later, last, rfl⟩ := later.eq_nil_or_concat'
    · exact .inl (List.singleton_inj.mp (List.append_inj_right' h rfl))
    · rw [← List.cons_append, ← List.append_assoc] at h
      obtain ⟨rfl, same⟩ := List.append_inj' h rfl
      obtain rfl := List.singleton_inj.mp same
      simp only [List.mem_append, List.mem_singleton, not_or] at kept kept'
      exact .inr ⟨⟨earlier, later, rfl, kept.1, kept'.1⟩, Ne.symm kept.2, Ne.symm kept'.2⟩
  · rintro (rfl | ⟨⟨earlier, later, rfl, kept, kept'⟩, hr, hc⟩)
    · exact ⟨actions, [], rfl, by simp⟩
    · refine ⟨earlier, later ++ [action], by simp, ?_, ?_⟩
      · simpa using ⟨kept, Ne.symm hr⟩
      · simpa using ⟨kept', Ne.symm hc⟩

namespace Machine

variable {β : Type} [Bus β] {m : Machine β}

/-- **Nothing else that a driver does changes the breakpoints.** -/
theorem breakpoints_act {action : Action} (ha : ∀ b, action ≠ .addBreakpoint b)
    (hr : ∀ b, action ≠ .removeBreakpoint b) (hc : action ≠ .clearBreakpoints) :
    (m.act action).2.cpu.debugger.breakpoints = m.cpu.debugger.breakpoints := by
  cases action with
  | addBreakpoint b => exact absurd rfl (ha b)
  | removeBreakpoint b => exact absurd rfl (hr b)
  | clearBreakpoints => exact absurd rfl hc
  | step => exact m.breakpoints_step
  | wakeFromStop =>
    change m.cpu.wakeFromStop.debugger.breakpoints = _
    rw [Cpu.wakeFromStop]
    split
    · exact Debugger.breakpoints_event _ _ _
    · rfl
  | acceptsInterrupt => exact congrArg (·.debugger.breakpoints) m.cpu_acceptsInterrupt
  | _ => rfl

/-- **What an action does to one breakpoint.** -/
theorem mem_breakpoints_act {action : Action} {b : Breakpoint} :
    b ∈ (m.act action).2.cpu.debugger.breakpoints ↔ action = .addBreakpoint b ∨
      b ∈ m.cpu.debugger.breakpoints ∧ action ≠ .removeBreakpoint b ∧
        action ≠ .clearBreakpoints := by
  cases action with
  | addBreakpoint b' =>
    change b ∈ m.cpu.debugger.breakpoints.insert b' ↔ _
    simp [eq_comm]
  | removeBreakpoint b' =>
    change b ∈ m.cpu.debugger.breakpoints.erase b' ↔ _
    simp [eq_comm]
  | clearBreakpoints =>
    change b ∈ Breakpoints.empty ↔ _
    simp [← Breakpoints.mem_toList, Breakpoints.empty, Breakpoints.toList, AddressSet.empty]
  | _ =>
    rw [breakpoints_act (by simp) (by simp) (by simp)]
    simp

/-- **The breakpoints after a session** are those in force. -/
theorem mem_breakpoints_session (config : Config) (bus : β) (actions : List Action)
    (b : Breakpoint) :
    b ∈ ((⟨.new config, bus⟩ : Machine β).session actions).2.cpu.debugger.breakpoints ↔
      b.InForce actions := by
  induction actions using List.reverseRecOn with
  | nil =>
    refine iff_of_false ?_ b.not_inForce_nil
    change b ∉ Breakpoints.empty
    rw [← Breakpoints.mem_toList]
    exact List.not_mem_nil
  | append_singleton actions action ih =>
    rw [session_concat, mem_breakpoints_act, ih, Breakpoint.inForce_concat]

/-- **Breakpoints are a set.** In a session from the creation of a processor on, the breakpoints
listed are those that have been added and not been taken away since. None is listed twice, and they
are in order: those that wait for an instruction first, then for a load, then for a store, and by
ascending addresses among these. So the list does not depend on when they were added. Adding a
breakpoint tells whether it was missing, and taking it away whether it was there, and neither has
anything to do with another breakpoint, even one of another kind at the same address. Nothing else
that is done to the machine changes the list, which is empty once all have been taken away. -/
theorem breakpoints_session (config : Config) (bus : β) (actions : List Action) :
    let fresh : Machine β := ⟨.new config, bus⟩
    let m := (fresh.session actions).2
    let listed := m.cpu.debugger.breakpoints.toList
    let listedAfter := fun action => (m.act action).2.cpu.debugger.breakpoints.toList
    (∀ b, b ∈ listed ↔ b.InForce actions) ∧ listed.Nodup ∧ listed.Pairwise Breakpoint.Before ∧
    (∀ actions', (∀ b : Breakpoint, b.InForce actions' ↔ b.InForce actions) →
      (fresh.session actions').2.cpu.debugger.breakpoints.toList = listed) ∧
    (∀ b, ∃ missing, (m.act (.addBreakpoint b)).1 = .truth missing ∧
      (missing = true ↔ b ∉ listed) ∧
      ∀ b', b' ≠ b → (b' ∈ listedAfter (.addBreakpoint b) ↔ b' ∈ listed)) ∧
    (∀ b, ∃ present, (m.act (.removeBreakpoint b)).1 = .truth present ∧
      (present = true ↔ b ∈ listed) ∧
      ∀ b', b' ≠ b → (b' ∈ listedAfter (.removeBreakpoint b) ↔ b' ∈ listed)) ∧
    listedAfter .clearBreakpoints = [] ∧
    ∀ action, (∀ b, action ≠ .addBreakpoint b) → (∀ b, action ≠ .removeBreakpoint b) →
      action ≠ .clearBreakpoints → listedAfter action = listed := by
  intro fresh m listed listedAfter
  refine ⟨fun b => ?_, Breakpoints.nodup_toList _, Breakpoints.pairwise_toList _, ?_, ?_, ?_, rfl,
    fun action ha hr hc => ?_⟩
  · rw [Breakpoints.mem_toList, mem_breakpoints_session]
  · intro actions' same
    refine Breakpoints.toList_eq_of_mem_iff fun b => ?_
    rw [mem_breakpoints_session, mem_breakpoints_session, same]
  · refine fun b => ⟨_, rfl, ?_, fun b' other => ?_⟩
    · rw [Breakpoints.mem_toList, Bool.not_eq_true', decide_eq_false_iff_not]
    · rw [Breakpoints.mem_toList, Breakpoints.mem_toList, mem_breakpoints_act]
      simp [other.symm]
  · refine fun b => ⟨_, rfl, ?_, fun b' other => ?_⟩
    · rw [Breakpoints.mem_toList, decide_eq_true_iff]
    · rw [Breakpoints.mem_toList, Breakpoints.mem_toList, mem_breakpoints_act]
      simp [other.symm]
  · exact congrArg Breakpoints.toList (breakpoints_act ha hr hc)

/-- Breakpoints added out of order, one of them twice, and one taken away again after a step that
is trapped by it. -/
def relistingActions : List Action :=
  [.addBreakpoint ⟨.write, 0x0100⟩, .addBreakpoint ⟨.execute, 0x0200⟩,
    .addBreakpoint ⟨.execute, 0x0100⟩, .step, .resume, .addBreakpoint ⟨.write, 0x0100⟩,
    .addBreakpoint ⟨.read, 0x0100⟩, .reset, .removeBreakpoint ⟨.execute, 0x0100⟩]

/-- The three that are left are listed in order, also once one of them has been added again. A step
leaves them, and so does taking away one of another kind at the same address. -/
theorem breakpoints_session_relisting :
    let fresh : Machine Ram := ⟨.new .standard, Ram.zero⟩
    let m := (fresh.session relistingActions).2
    let listed : List Breakpoint := [⟨.execute, 0x0200⟩, ⟨.read, 0x0100⟩, ⟨.write, 0x0100⟩]
    (fresh.session relistingActions).1 = [.truth true, .truth true, .truth true, .outcome .trapped,
      .done, .truth false, .truth true, .done, .truth true] ∧
    m.cpu.debugger.breakpoints.toList = listed ∧
    (fresh.session (relistingActions ++
      [.addBreakpoint ⟨.read, 0x0100⟩])).2.cpu.debugger.breakpoints.toList = listed ∧
    (m.act .step).2.cpu.debugger.breakpoints.toList = listed ∧
    ⟨.read, 0x0100⟩ ∈
      (m.act (.removeBreakpoint ⟨.write, 0x0100⟩)).2.cpu.debugger.breakpoints.toList := by
  intro fresh m listed
  obtain ⟨kept, -, -, same, -, taken, -, rest⟩ :=
    breakpoints_session .standard Ram.zero relistingActions
  have replies : (fresh.session relistingActions).1 = [.truth true, .truth true, .truth true,
      .outcome .trapped, .done, .truth false, .truth true, .done, .truth true] := by
    decide +kernel
  have left : m.cpu.debugger.breakpoints.toList = listed := by decide +kernel
  refine ⟨replies, left, (same _ fun b => ?_).trans left, ?_, ?_⟩
  · rw [Breakpoint.inForce_concat, ← kept, left]
    refine ⟨?_, fun h => .inr ⟨h, by simp, by simp⟩⟩
    rintro (again | ⟨h, -⟩)
    · obtain rfl := Action.addBreakpoint.inj again
      decide
    · exact h
  · exact (rest .step (by simp) (by simp) (by simp)).trans left
  · obtain ⟨-, -, -, others⟩ := taken ⟨.write, 0x0100⟩
    refine (others ⟨.read, 0x0100⟩ (by decide)).mpr ?_
    rw [left]
    decide

end Machine

end GameBoy
