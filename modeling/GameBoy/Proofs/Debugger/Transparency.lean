import GameBoy.Bus.Ram
import GameBoy.Proofs.Debugger.Bare
import GameBoy.Proofs.Step.Quiet

/-!
# Breakpoints change nothing

A driver that lets the machine go whenever it is trapped (`GameBoy.Machine.attend`) sees, between
the traps, exactly what it would see if there were no breakpoints. This holds on every quiet bus,
whatever the breakpoints are, and for runs of any length: `GameBoy.Machine.Shadows.seen_history`.
Nor is the machine ever trapped twice in a row (`GameBoy.Machine.isChain_history_attend`).

The two runs are kept together by `GameBoy.Machine.Shadows`: the machine without breakpoints has
the same bare machine, and neither is held. A turn that is not trapped is a step of both of them. A
turn that is trapped moves only the one with breakpoints. It has then looked for interrupts, which
may have ended a halt, and has perhaps read the opcode, which records its length. The point is that
trying again comes to the same (`GameBoy.Machine.Retries.seen_freeStep`): a halt that has been ended
leaves the machine with no interrupt to take, so that none can slip in between, and the length is
recorded once more.
-/

namespace GameBoy

/-- A value stored twice at one address might as well have been stored once. -/
theorem AddressMap.set_set {α : Type} (m : AddressMap α) (a : UInt16) (v : α) :
    (m.set a v).set a v = m.set a v := by
  apply AddressMap.ext
  intro b
  rw [AddressMap.get_set, AddressMap.get_set]
  split <;> rfl

namespace Machine

variable {β : Type}

/-! ### Driving a machine past its breakpoints -/

/-- The machine let go by the debugger. -/
def resume (m : Machine β) : Machine β := m.withCpu (·.withDebugger (·.resume))

/-- The machine with every breakpoint taken away. -/
def unmarked (m : Machine β) : Machine β := m.withCpu (·.withDebugger (·.clearBreakpoints))

/-- **A number of turns**, each with its outcome and the machine after it. -/
def history (turn : Machine β → StepOutcome × Machine β) :
    (count : Nat) → Machine β → List (StepOutcome × Machine β)
  | 0, _ => []
  | count + 1, m => turn m :: history turn count (turn m).2

/-- What is left of a history without the turns that were trapped. -/
def withoutTraps (turns : List (StepOutcome × Machine β)) : List (StepOutcome × Machine β) :=
  turns.filter fun s => s.1 ≠ .trapped

theorem withoutTraps_cons_of_eq {s : StepOutcome × Machine β} (h : s.1 = .trapped)
    (rest : List (StepOutcome × Machine β)) : withoutTraps (s :: rest) = withoutTraps rest :=
  List.filter_cons_of_neg (by simpa using h)

theorem withoutTraps_cons_of_ne {s : StepOutcome × Machine β} (h : s.1 ≠ .trapped)
    (rest : List (StepOutcome × Machine β)) :
    withoutTraps (s :: rest) = s :: withoutTraps rest :=
  List.filter_cons_of_pos (by simpa using h)

variable [Bus β]

/-- **One turn of a driver that lets the machine go** whenever a step has been trapped. -/
def attend (m : Machine β) : StepOutcome × Machine β :=
  let (outcome, next) := m.step
  (outcome, if outcome = .trapped then next.resume else next)

/-- A turn that is not trapped is a step. -/
theorem attend_eq_step {m : Machine β} (ho : m.step.1 ≠ .trapped) : m.attend = m.step :=
  Prod.ext rfl (if_neg ho)

/-- After a turn that is trapped, the machine has been let go. -/
theorem attend_snd {m : Machine β} (ho : m.step.1 = .trapped) : m.attend.2 = m.step.2.resume :=
  if_pos ho

/-! ### Trying again -/

variable {m n u : Machine β}

/-- A machine that goes on to an instruction is not halted when it has looked for interrupts. -/
theorem halted_alert (hp : m.Proceeds) : m.alert.cpu.core.halted = false := by
  unfold Proceeds at hp
  rw [cpu_alert]
  split at hp
  · rename_i hi
    rw [hi]
    exact hp
  · rename_i i hi
    rw [hi, Option.isSome_some, Bool.true_and]
    by_cases hh : m.cpu.core.halted = true
    · rw [if_pos hh]
      rfl
    · rw [if_neg hh]
      exact Bool.eq_false_iff.mpr hh

/-- **A machine about to try again** what another one was about to do: everything but the debugger
is as it was after the look for interrupts, apart from what the next instruction will do again. -/
structure Retries (n m : Machine β) : Prop where
  blocked : n.cpu.blocked = m.cpu.blocked
  core : n.cpu.core = m.alert.cpu.core
  bus : n.bus = m.bus
  runNext : n.runNext.bare = m.alert.runNext.bare

/-- The debugger does not matter when trying again. -/
theorem Retries.congr (h : Retries m u) (hb : n.bare = m.bare) : Retries n u where
  blocked := (blocked_congr hb).trans h.blocked
  core := (core_congr hb).trans h.core
  bus := (congrArg (·.bus) hb).trans h.bus
  runNext := (bare_runNext_congr hb).trans h.runNext

variable [QuietBus β]

/-- A machine that has looked for interrupts can try again. -/
theorem retries_alert (m : Machine β) : Retries m.alert m where
  blocked := by
    rw [cpu_alert]
    split <;> rfl
  core := rfl
  bus := m.bus_alert
  runNext := rfl

/-- An opcode that has been read reads the same the next time, with the same length to record. -/
theorem runNext_readInstruction (m : Machine β) : m.readInstruction.2.runNext = m.runNext := by
  -- reading again finds the same opcode, and records its length where it is recorded already
  have again : m.readInstruction.2.readInstruction = m.readInstruction := by
    have hi : m.readInstruction.2.instruction = m.instruction := by rw [readInstruction_eq]; rfl
    rw [readInstruction_eq m.readInstruction.2, hi, readInstruction_eq]
    simp only [pc, AddressMap.set_set]
  rw [runNext, again, runNext]

/-- A machine that has read the opcode as well can try again. -/
theorem retries_readInstruction (m : Machine β) : Retries m.alert.readInstruction.2 m where
  blocked := m.retries_alert.blocked
  core := rfl
  bus := by
    rw [readInstruction_eq]
    exact m.bus_alert
  runNext := by rw [runNext_readInstruction]

/-- **Trying again comes to the same**: the free step is the one that would have been taken. -/
theorem Retries.seen_freeStep (h : Retries n m) (ready : m.Ready) (hp : m.Proceeds) :
    seen n.freeStep = seen m.freeStep := by
  have hblocked : n.cpu.blocked = false := h.blocked.trans ready.blocked
  have hstopped : n.cpu.core.stopped = false := by
    rw [h.core, ← ready.stopped, cpu_alert]
    split <;> rfl
  have hhalted : n.cpu.core.halted = false := by rw [h.core, halted_alert hp]
  -- no interrupt slips in: the halt is over, and one that could be taken would have been
  have hproceeds : n.Proceeds := by
    obtain ⟨he, -⟩ := m.proceeds_iff.mp hp
    refine n.proceeds_iff.mpr ⟨?_, ?_⟩
    · rwa [lines, h.core, ime_alert, h.bus]
    · rw [hhalted]
      simp
  rw [freeStep_eq_runNext hblocked hstopped hproceeds,
    freeStep_eq_runNext ready.blocked ready.stopped hp, n.alert_eq_self hhalted]
  exact seen_congr h.runNext

/-- **A machine that has been trapped and let go tries again.** -/
theorem retries_step (free : m.cpu.debugger.hold = .free) (ho : m.step.1 = .trapped) :
    m.Ready ∧ m.Proceeds ∧ Retries m.step.2.resume m := by
  have hm := m.step_cases
  generalize m.step = s at hm ho ⊢
  cases hm with
  | held _ _ ht =>
    rw [Debugger.trapped_eq_true_iff, free] at ht
    simp at ht
  | caught b ready hp => exact ⟨ready, hp, m.retries_alert.congr rfl⟩
  | stalled b ready hp => exact ⟨ready, hp, m.retries_readInstruction.congr rfl⟩
  | _ => simp at ho

omit [QuietBus β] in
/-- A machine that has just been let go is not trapped. -/
theorem step_fst_resume_ne_trapped (m : Machine β) : m.resume.step.1 ≠ .trapped :=
  m.resume.step_fst_ne_trapped rfl fun _ => Debugger.hit?_eq_none_iff.mpr (.inl rfl)

/-! ### Two machines side by side -/

omit [Bus β] [QuietBus β] in
/-- **A machine without breakpoints shadows another** if the two differ in their debuggers only and
neither is held. -/
structure Shadows (u m : Machine β) : Prop where
  bare : u.bare = m.bare
  free : m.cpu.debugger.hold = .free
  untrapped : u.cpu.debugger.trapped = false
  unmarked : u.cpu.debugger.breakpoints = .empty

omit [QuietBus β] in
/-- A machine without breakpoints is never trapped. -/
theorem Shadows.step_fst_ne_trapped (h : Shadows u m) : u.step.1 ≠ .trapped := by
  refine u.step_fst_ne_trapped h.untrapped ?_
  intro places
  refine Debugger.hit?_eq_none_iff.mpr (.inr ?_)
  intro b _
  rw [h.unmarked]
  rcases b with ⟨_ | _ | _, a⟩ <;> exact List.not_mem_nil

omit [QuietBus β] in
/-- What the next machine has to satisfy for the shadow to follow it. -/
theorem Shadows.next (h : Shadows u m) {m' : Machine β} (hb : u.step.2.bare = m'.bare)
    (hf : m'.cpu.debugger.hold = .free) : Shadows u.step.2 m' where
  bare := hb
  free := hf
  untrapped := by
    have hold := u.hold_step
    have ht := (Debugger.trapped_eq_false_iff _).mp h.untrapped
    rw [Debugger.trapped_eq_false_iff, hold]
    have ho := h.step_fst_ne_trapped
    generalize u.step.1 = o at ho
    cases o with
    | trapped => exact absurd rfl ho
    | executed | interrupted => simp
    | halted | stopped | blocked => exact ht
  unmarked := by rw [u.breakpoints_step, h.unmarked]

omit [QuietBus β] in
/-- A turn that is not trapped is a step of both machines. -/
theorem Shadows.attend (h : Shadows u m) (ho : m.step.1 ≠ .trapped) :
    seen m.attend = seen u.step ∧ Shadows u.step.2 m.attend.2 := by
  have hs : seen u.step = seen m.step := by
    rw [step_eq_freeStep ho, step_eq_freeStep h.step_fst_ne_trapped, seen_freeStep_congr h.bare]
  rw [attend_eq_step ho]
  refine ⟨hs.symm, h.next (congrArg (·.2) hs) ?_⟩
  rw [hold_step]
  cases hstep : m.step.1 with
  | trapped => exact absurd hstep ho
  | executed | interrupted => rfl
  | halted | stopped | blocked => exact h.free

/-- A turn that is trapped moves only one of the two, and the next turn is not trapped and makes up
for it. -/
theorem Shadows.attend_attend (h : Shadows u m) (ho : m.step.1 = .trapped) :
    seen m.attend.2.attend = seen u.step ∧ Shadows u.step.2 m.attend.2.attend.2 := by
  obtain ⟨ready, hp, again⟩ := retries_step h.free ho
  have hn := m.step.2.step_fst_resume_ne_trapped
  have hseen : seen m.step.2.resume.step = seen m.freeStep := by
    rw [step_eq_freeStep hn, again.seen_freeStep ready hp]
  have hs : seen u.step = seen m.freeStep := by
    rw [step_eq_freeStep h.step_fst_ne_trapped, seen_freeStep_congr h.bare]
  rw [attend_snd ho, attend_eq_step hn, hseen, hs]
  refine ⟨rfl, h.next (congrArg (·.2) (hs.trans hseen.symm)) ?_⟩
  -- leave to pass has been used up, for an instruction has run
  have executed : m.step.2.resume.step.1 = .executed := by
    have ho := congrArg (·.1) hseen
    rwa [freeStep_eq_runNext ready.blocked ready.stopped hp] at ho
  rw [hold_step, executed]

/-! ### Runs -/

omit [QuietBus β] in
/-- **No machine is trapped twice in a row** if it is let go in between. -/
theorem isChain_history_attend (k : Nat) (m : Machine β) :
    (history attend k m).IsChain fun s t => s.1 = .trapped → t.1 ≠ .trapped := by
  induction k generalizing m with
  | zero => exact .nil
  | succ k ih =>
    refine List.isChain_cons.mpr ⟨?_, ih m.attend.2⟩
    intro t ht ho
    cases k with
    | zero => simp [history] at ht
    | succ k =>
      obtain rfl : m.attend.2.attend = t := Option.some.inj ht
      rw [attend_snd ho]
      exact m.step.2.step_fst_resume_ne_trapped

/-- **The shadow sees what happens between the traps**, and two turns are always enough for one of
its steps. -/
theorem Shadows.seen_history (h : Shadows u m) {count k : Nat} (hk : 2 * count ≤ k) :
    ((withoutTraps (history Machine.attend k m)).take count).map seen =
      (history step count u).map seen := by
  induction count generalizing k m u with
  | zero => rfl
  | succ count ih =>
    obtain ⟨k, rfl⟩ : ∃ k', k = k' + 2 := ⟨k - 2, by omega⟩
    by_cases ho : m.attend.1 = .trapped
    · -- two turns of the one machine for a step of the other
      obtain ⟨hs, next⟩ := h.attend_attend ho
      have again : m.attend.2.attend.1 ≠ .trapped := fun ht =>
        h.step_fst_ne_trapped ((congrArg (·.1) hs).symm.trans ht)
      rw [history, history, withoutTraps_cons_of_eq ho, withoutTraps_cons_of_ne again,
        List.take_succ_cons, List.map_cons, hs, ih next (by omega), history, List.map_cons]
    · -- one turn for a step
      obtain ⟨hs, next⟩ := h.attend ho
      rw [history, withoutTraps_cons_of_ne ho, List.take_succ_cons, List.map_cons, hs,
        ih next (by omega), history, List.map_cons]

/-- **Breakpoints change nothing.** On a quiet bus, a machine that is neither held nor has leave to
pass, and that is let go whenever it is trapped, is never trapped twice in a row; and what it does
between the traps is what it would do without breakpoints, for as long as it runs. -/
theorem history_attend (m : Machine β) (hold : m.cpu.debugger.hold = .free) :
    (∀ k, (history attend k m).IsChain fun s t => s.1 = .trapped → t.1 ≠ .trapped) ∧
      ∀ count k, 2 * count ≤ k →
        ((withoutTraps (history attend k m)).take count).map seen =
          (history step count m.unmarked).map seen := by
  have untrapped : m.unmarked.cpu.debugger.trapped = false := by
    rw [Debugger.trapped_eq_false_iff]
    change m.cpu.debugger.hold ≠ .trapped
    rw [hold]
    simp
  have shadows : Shadows m.unmarked m := ⟨rfl, hold, untrapped, rfl⟩
  exact ⟨fun k => isChain_history_attend k m, fun _ _ hk => shadows.seen_history hk⟩

/-- A halted machine in front of a store, with an interrupt to wake it and breakpoints on both the
instruction and the store. -/
def wakingUp : Machine Ram where
  cpu :=
    { (Cpu.new .standard).withDebugger fun d =>
        ((d.addBreakpoint ⟨.execute, 0x0100⟩).2.addBreakpoint ⟨.write, 0xC000⟩).2 with
      core := { (Cpu.new .standard).core with halted := true } }
  bus := (Ram.zero.load 0x0100 [0xEA, 0x00, 0xC0]).load 0xFF0F [0x01] |>.load 0xFFFF [0x01]

/-- Waking up at a breakpoint comes to the same as waking up. -/
theorem history_attend_wakingUp :
    (history attend 2 wakingUp).map (·.1) = [.trapped, .executed] ∧
      ((withoutTraps (history attend 2 wakingUp)).take 1).map seen =
        (history step 1 wakingUp.unmarked).map seen :=
  ⟨by decide +kernel, (history_attend wakingUp rfl).2 1 2 (by decide)⟩

end Machine

end GameBoy
