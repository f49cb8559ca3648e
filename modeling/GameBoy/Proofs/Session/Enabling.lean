import GameBoy.Bus.Ram
import GameBoy.Proofs.Session.Moments
import Mathlib.Data.List.DropRight

/-!
# When interrupts are taken

The core keeps two truth values about interrupts: whether they are taken now, and whether they are
taken from the next instruction on. This file says what the two come to in terms of the past of a
session. Only what has happened since interrupts were last switched off counts
(`GameBoy.Moment.recent`): since the start, a reset, a `DI` that ran, or the dispatch of an
interrupt.

* Interrupts are taken from the next instruction on if an `EI` or a `RETI` has run since then
  (`GameBoy.Moment.Asked`).
* They are taken now if a `RETI` has run since then, or an `EI` and after it any instruction
  (`GameBoy.Moment.InForce`).

A moment does one of five things to the two values (`GameBoy.Moment.EnableCase`), and one moment
more changes what is recent accordingly, so that the core goes on reflecting the past
(`GameBoy.Moment.Reflects.next`). By induction on the session it always does:
`GameBoy.Machine.enabled_session`.
-/

namespace GameBoy

variable {β : Type} [Bus β]

namespace Moment

/-! ### What a moment does -/

/-- **Interrupts are switched off** by a reset, by the dispatch of an interrupt, and by a `DI`. -/
def closes (s : Moment β) : Bool :=
  match s.action with
  | .reset | .resetTo _ => true
  | _ =>
    match s.outcome? with
    | some (.interrupted _) => true
    | _ => decide (s.Runs .disableInterrupts)

/-- **What a moment does to interrupts being taken**, now and from the next instruction on. -/
inductive EnableCase (s : Moment β) : Prop
  /-- Interrupts are switched off. -/
  | closes (h : s.closes = true) (now : s.next.cpu.core.ime = false)
    (later : s.next.cpu.core.imeNext = false)
  /-- An `EI` runs. What was decided before it comes into force. -/
  | enables (h : s.Runs .enableInterrupts) (now : s.next.cpu.core.ime = s.machine.cpu.core.imeNext)
    (later : s.next.cpu.core.imeNext = true)
  /-- A `RETI` runs. -/
  | returns (h : s.Runs .retInterrupt) (now : s.next.cpu.core.ime = true)
    (later : s.next.cpu.core.imeNext = true)
  /-- Another instruction runs. What was decided before it comes into force. -/
  | runs (h : s.outcome? = some .executed) (hc : s.closes = false)
    (hi : ¬s.Runs .enableInterrupts) (hr : ¬s.Runs .retInterrupt)
    (now : s.next.cpu.core.ime = s.machine.cpu.core.imeNext)
    (later : s.next.cpu.core.imeNext = s.machine.cpu.core.imeNext)
  /-- No instruction runs, and nothing changes. -/
  | waits (h : s.outcome? ≠ some .executed) (hc : s.closes = false)
    (now : s.next.cpu.core.ime = s.machine.cpu.core.ime)
    (later : s.next.cpu.core.imeNext = s.machine.cpu.core.imeNext)

/-- A step in which an instruction runs. -/
theorem enableCase_executed {m : Machine β} (ho : m.step.1 = .executed) :
    EnableCase ⟨m, .step⟩ := by
  have executed : (⟨m, .step⟩ : Moment β).outcome? = some .executed := by rw [outcome?_step, ho]
  have closes : (⟨m, .step⟩ : Moment β).closes = decide (m.fetched = .disableInterrupts) := by
    simp only [Moment.closes, executed, Runs, true_and]
  have after := m.sameSwitches_step ho
  by_cases hd : m.fetched = .disableInterrupts
  · rw [hd] at after
    exact .closes (closes.trans (decide_eq_true hd)) after.ime after.imeNext
  by_cases he : m.fetched = .enableInterrupts
  · rw [he] at after
    exact .enables ⟨executed, he⟩ (after.ime.trans m.imeNext_alert) after.imeNext
  by_cases ht : m.fetched = .retInterrupt
  · rw [ht] at after
    exact .returns ⟨executed, ht⟩ after.ime after.imeNext
  -- no other instruction touches the two switches
  obtain ⟨now, later⟩ := Instruction.interrupts_switched
    { m.alert.cpu.core with ime := m.alert.cpu.core.imeNext } hd he ht
  refine .runs executed (closes.trans (decide_eq_false hd)) (fun h => he h.2) (fun h => ht h.2) ?_ ?_
  · exact (after.ime.trans now).trans m.imeNext_alert
  · exact (after.imeNext.trans later).trans m.imeNext_alert

/-- A step in which neither an instruction runs nor an interrupt is dispatched. -/
theorem enableCase_of_waits {m : Machine β} (ho : m.step.1.waits = true) :
    EnableCase ⟨m, .step⟩ := by
  have outcome := outcome?_step m
  have after := m.core_step_of_waits ho
  generalize m.step.1 = o at ho outcome
  cases o with
  | executed | interrupted => simp [StepOutcome.waits] at ho
  | halted | stopped | blocked | trapped =>
    have now : m.step.2.cpu.core.ime = m.cpu.core.ime := by rw [after]
    have later : m.step.2.cpu.core.imeNext = m.cpu.core.imeNext := by rw [after]
    exact .waits (by simp [outcome]) (by simp [closes, outcome, Runs]) now later

/-- **A moment does one of five things to interrupts being taken**, unless the driver changes the
core directly. -/
theorem enableCase {s : Moment β} (h : ∀ x, s.action ≠ .assign x) : EnableCase s := by
  obtain ⟨m, action⟩ := s
  cases action with
  | step =>
    cases ho : m.step.1 with
    | executed => exact enableCase_executed ho
    | interrupted i =>
      obtain ⟨-, -, -, dispatched⟩ := Machine.eq_dispatch_of_step ho
      refine .closes (by simp [closes, outcome?_step, ho]) ?_ ?_
      · exact congrArg (·.cpu.core.ime) dispatched
      · exact congrArg (·.cpu.core.imeNext) dispatched
    | halted | stopped | blocked | trapped => exact enableCase_of_waits (by rw [ho]; rfl)
  | assign x => exact absurd rfl (h x)
  | reset | resetTo r => exact .closes rfl rfl rfl
  | wakeFromStop =>
    have after := m.cpu.core_wakeFromStop
    have now : m.cpu.wakeFromStop.core.ime = m.cpu.core.ime := by rw [after]
    have later : m.cpu.wakeFromStop.core.imeNext = m.cpu.core.imeNext := by rw [after]
    exact .waits (by simp [outcome?]) (by simp [closes, outcome?, Runs]) now later
  | acceptsInterrupt =>
    have after := m.cpu_acceptsInterrupt
    refine .waits (by simp [outcome?]) (by simp [closes, outcome?, Runs]) ?_ ?_
    · exact congrArg (·.core.ime) after
    · exact congrArg (·.core.imeNext) after
  | _ => exact .waits (by simp [outcome?]) (by simp [closes, outcome?, Runs]) rfl rfl

/-! ### What the past comes to -/

/-- **The moments since interrupts were last switched off.** -/
def recent (moments : List (Moment β)) : List (Moment β) :=
  moments.rtakeWhile fun s => !s.closes

/-- **Interrupts have been asked for**, by an `EI` or a `RETI`. -/
def Asked (moments : List (Moment β)) : Prop :=
  ∃ s ∈ moments, s.Runs .enableInterrupts ∨ s.Runs .retInterrupt

/-- **What was asked for has come into force**: at once after a `RETI`, and with the next
instruction that ran after an `EI`. -/
def InForce (moments : List (Moment β)) : Prop :=
  (∃ s ∈ moments, s.Runs .retInterrupt) ∨
    ∃ before s after, moments = before ++ s :: after ∧ s.Runs .enableInterrupts ∧
      ∃ t ∈ after, t.outcome? = some .executed

variable {s : Moment β} {moments : List (Moment β)}

theorem recent_concat_of_closes (h : s.closes = true) : recent (moments ++ [s]) = [] :=
  List.rtakeWhile_concat_neg _ _ _ (by simp [h])

theorem recent_concat (h : s.closes = false) : recent (moments ++ [s]) = recent moments ++ [s] :=
  List.rtakeWhile_concat_pos _ _ _ (by simp [h])

/-- What came before interrupts were switched off is not recent. -/
theorem recent_append_cons_of_closes (h : s.closes = true) (before after : List (Moment β)) :
    recent (before ++ s :: after) = recent after := by
  induction after using List.reverseRecOn with
  | nil => exact recent_concat_of_closes h
  | append_singleton after t ih =>
    have regroup : before ++ s :: (after ++ [t]) = (before ++ s :: after) ++ [t] := by simp
    rw [regroup]
    cases ht : t.closes with
    | true => rw [recent_concat_of_closes ht, recent_concat_of_closes ht]
    | false => rw [recent_concat ht, recent_concat ht, ih]

theorem asked_concat :
    Asked (moments ++ [s]) ↔ Asked moments ∨ s.Runs .enableInterrupts ∨ s.Runs .retInterrupt := by
  constructor
  · rintro ⟨t, ht, hr⟩
    rcases List.mem_append.mp ht with ht | ht
    · exact .inl ⟨t, ht, hr⟩
    · obtain rfl := List.mem_singleton.mp ht
      exact .inr hr
  · rintro (⟨t, ht, hr⟩ | hr)
    · exact ⟨t, List.mem_append_left _ ht, hr⟩
    · exact ⟨s, List.mem_append_right _ (List.mem_singleton_self s), hr⟩

/-- Nothing comes into force that has not been asked for. -/
theorem InForce.asked (h : InForce moments) : Asked moments := by
  rcases h with ⟨s, hs, hr⟩ | ⟨before, s, after, rfl, he, -⟩
  · exact ⟨s, hs, .inr hr⟩
  · exact ⟨s, List.mem_append_right _ List.mem_cons_self, .inl he⟩

/-- What is in force by the end of some moments is so whatever came before them. -/
theorem InForce.of_suffix {later : List (Moment β)} (h : InForce later) (hs : later <:+ moments) :
    InForce moments := by
  obtain ⟨earlier, rfl⟩ := hs
  rcases h with ⟨s, hs, hr⟩ | ⟨before, s, after, rfl, he, ht⟩
  · exact .inl ⟨s, List.mem_append_right _ hs, hr⟩
  · exact .inr ⟨earlier ++ before, s, after, (List.append_assoc ..).symm, he, ht⟩

/-- **One moment more** brings into force what has been asked for if an instruction runs. -/
theorem inForce_concat :
    InForce (moments ++ [s]) ↔
      InForce moments ∨ s.Runs .retInterrupt ∨
        (Asked moments ∧ s.outcome? = some .executed) := by
  constructor
  · rintro (⟨t, ht, hr⟩ | ⟨before, e, after, h, he, t, ht, hx⟩)
    · rcases List.mem_append.mp ht with ht | ht
      · exact .inl (.inl ⟨t, ht, hr⟩)
      · obtain rfl := List.mem_singleton.mp ht
        exact .inr (.inl hr)
    · -- the moment that is added comes last after the `EI`
      rcases List.eq_nil_or_concat after with rfl | ⟨after, u, rfl⟩
      · exact absurd ht List.not_mem_nil
      have regroup : before ++ e :: (after ++ [u]) = (before ++ e :: after) ++ [u] := by simp
      rw [List.concat_eq_append, regroup] at h
      obtain ⟨rfl, hu⟩ := List.append_inj' h rfl
      obtain rfl : s = u := List.head_eq_of_cons_eq hu
      rcases List.mem_append.mp (List.concat_eq_append ▸ ht) with ht | ht
      · exact .inl (.inr ⟨before, e, after, rfl, he, t, ht, hx⟩)
      · obtain rfl := List.mem_singleton.mp ht
        exact .inr (.inr ⟨⟨e, List.mem_append_right _ List.mem_cons_self, .inl he⟩, hx⟩)
  · rintro (h | hr | ⟨⟨e, hmem, he | hr⟩, hx⟩)
    · rcases h with ⟨t, ht, hr⟩ | ⟨before, e, after, rfl, he, t, ht, hx⟩
      · exact .inl ⟨t, List.mem_append_left _ ht, hr⟩
      · exact .inr ⟨before, e, after ++ [s], by simp, he, t, List.mem_append_left _ ht, hx⟩
    · exact .inl ⟨s, List.mem_append_right _ (List.mem_singleton_self s), hr⟩
    · obtain ⟨before, after, rfl⟩ := List.append_of_mem hmem
      exact .inr ⟨before, e, after ++ [s], by simp, he, s,
        List.mem_append_right _ (List.mem_singleton_self s), hx⟩
    · exact .inl ⟨e, List.mem_append_left _ hmem, hr⟩

/-- An instruction that is no `DI` does not switch interrupts off. -/
theorem Runs.closes_eq {i : Instruction} (h : s.Runs i) (hi : i ≠ .disableInterrupts) :
    s.closes = false := by
  obtain ⟨hs, ho⟩ := eq_of_outcome? h.1
  have hd : ¬s.Runs .disableInterrupts := fun hd => hi (h.unique hd)
  simp [closes, hs, h.1, hd]

/-! ### The core and the past -/

/-- **A core reflects a past**: its two truth values say what the recent moments come to. -/
structure Reflects (c : Core) (past : List (Moment β)) : Prop where
  later : c.imeNext = true ↔ Asked (recent past)
  now : c.ime = true ↔ InForce (recent past)

/-- **The core goes on reflecting the past** as one moment is added to it. -/
theorem Reflects.next {past : List (Moment β)} (h : Reflects s.machine.cpu.core past)
    (hs : ∀ x, s.action ≠ .assign x) : Reflects s.next.cpu.core (past ++ [s]) := by
  have asked : InForce (recent past) ∨ Asked (recent past) ↔ Asked (recent past) :=
    or_iff_right_of_imp InForce.asked
  cases enableCase hs with
  | closes hc now later =>
    constructor
    · rw [later, recent_concat_of_closes hc]
      simp [Asked]
    · rw [now, recent_concat_of_closes hc]
      simp [InForce]
  | enables he now later =>
    have hr : ¬s.Runs .retInterrupt := fun hr => nomatch he.unique hr
    have hc := he.closes_eq (by simp)
    constructor
    · rw [later, recent_concat hc, asked_concat]
      simp [he]
    · rw [now, h.later, recent_concat hc, inForce_concat]
      simp [hr, he.1, asked]
  | returns hr now later =>
    have hc := hr.closes_eq (by simp)
    constructor
    · rw [later, recent_concat hc, asked_concat]
      simp [hr]
    · rw [now, recent_concat hc, inForce_concat]
      simp [hr]
  | runs hx hc he hr now later =>
    constructor
    · rw [later, h.later, recent_concat hc, asked_concat]
      simp [he, hr]
    · rw [now, h.later, recent_concat hc, inForce_concat]
      simp [hr, hx, asked]
  | waits hx hc now later =>
    have he : ¬s.Runs .enableInterrupts := fun he => hx he.1
    have hr : ¬s.Runs .retInterrupt := fun hr => hx hr.1
    constructor
    · rw [later, h.later, recent_concat hc, asked_concat]
      simp [he, hr]
    · rw [now, h.now, recent_concat hc, inForce_concat]
      simp [hr, hx]

end Moment

namespace Machine

open Moment

variable {m : Machine β} {actions : List Action}

/-- **The core reflects the past of the session**, however long it is. -/
theorem reflects_session (hm : Reflects m.cpu.core ([] : List (Moment β)))
    (h : ∀ x, .assign x ∉ actions) :
    Reflects (m.session actions).2.cpu.core (m.moments actions) := by
  induction actions using List.reverseRecOn with
  | nil => exact hm
  | append_singleton actions action ih =>
    have earlier := ih fun x hx => h x (List.mem_append_left _ hx)
    have hlast : ∀ x, action ≠ .assign x := by
      rintro x rfl
      exact h x (List.mem_append_right _ (List.mem_singleton_self _))
    rw [moments_concat, session_concat]
    exact Reflects.next (s := ⟨(m.session actions).2, action⟩) earlier hlast

/-- A fresh core takes no interrupts, and nothing has happened to it. -/
theorem reflects_new (config : Config) : Reflects (Cpu.new config).core ([] : List (Moment β)) := by
  constructor
  · change false = true ↔ Asked (recent [])
    simp [recent, Asked]
  · change false = true ↔ InForce (recent [])
    simp [recent, InForce]

/-- **Where interrupts are not taken, they are not taken before an instruction has run.** -/
theorem ime_session_of_waits (hm : m.cpu.core.ime = false) (h : ∀ x, .assign x ∉ actions)
    (hw : ∀ s ∈ m.moments actions, s.outcome? ≠ some .executed) :
    (m.session actions).2.cpu.core.ime = false := by
  induction actions generalizing m with
  | nil => exact hm
  | cons action rest ih =>
    have first : (⟨m, action⟩ : Moment β).outcome? ≠ some .executed := hw _ List.mem_cons_self
    have hfirst : ∀ x, action ≠ .assign x := by
      rintro x rfl
      exact h x List.mem_cons_self
    refine ih ?_ (fun x hx => h x (List.mem_cons_of_mem _ hx))
      fun s hs => hw s (List.mem_cons_of_mem _ hs)
    cases enableCase (s := (⟨m, action⟩ : Moment β)) hfirst with
    | closes _ now => exact now
    | enables he => exact absurd he.1 first
    | returns hr => exact absurd hr.1 first
    | runs hx => exact absurd hx first
    | waits _ _ now => exact now.trans hm

/-! ### No interrupt too early -/

/-- An interrupt is dispatched only where interrupts are taken. -/
theorem ime_of_interrupted {t : Moment β} {i : Interrupt}
    (ht : t.outcome? = some (.interrupted i)) : t.machine.cpu.core.ime = true := by
  obtain ⟨-, ho⟩ := eq_of_outcome? ht
  obtain ⟨-, -, he, -⟩ := eq_dispatch_of_step ho
  exact he

/-- **Between an `EI` that finds interrupts off and an interrupt** another instruction runs. -/
theorem exists_executed_of_enables {before between after : List (Moment β)} {s t : Moment β}
    {i : Interrupt} (h : ∀ x, .assign x ∉ actions)
    (hm : m.moments actions = before ++ s :: between ++ t :: after)
    (hs : s.Runs .enableInterrupts) (off : s.machine.cpu.core.imeNext = false)
    (ht : t.outcome? = some (.interrupted i)) : ∃ u ∈ between, u.outcome? = some .executed := by
  rw [List.append_assoc, List.cons_append] at hm
  obtain ⟨earlier, later, rfl, -, -, hafter⟩ := exists_of_moments_eq hm
  obtain ⟨within, rest, rfl, rfl, hmachine, -⟩ := exists_of_moments_eq hafter.symm
  by_contra hnone
  have noAssign : ∀ x, .assign x ∉ within := by
    intro x hx
    exact h x (by simp [hx])
  have start : s.next.cpu.core.ime = false := by
    obtain ⟨hstep, -⟩ := eq_of_outcome? hs.1
    cases enableCase (s := s) (by simp [hstep]) with
    | closes _ now => exact now
    | enables _ now => exact now.trans off
    | returns hr => exact nomatch hs.unique hr
    | runs _ _ he => exact absurd hs he
    | waits hx => exact absurd hs.1 hx
  have stays := ime_session_of_waits start noAssign fun u hu hx => hnone ⟨u, hu, hx⟩
  rw [← hmachine, ime_of_interrupted ht] at stays
  exact Bool.noConfusion stays

/-- **Between two dispatches** what was asked for since the first comes into force. -/
theorem inForce_of_interrupted {before between after : List (Moment β)} {s t : Moment β}
    {i j : Interrupt} (start : Reflects m.cpu.core ([] : List (Moment β)))
    (h : ∀ x, .assign x ∉ actions)
    (hm : m.moments actions = before ++ s :: between ++ t :: after)
    (hs : s.outcome? = some (.interrupted i)) (ht : t.outcome? = some (.interrupted j)) :
    InForce between := by
  obtain ⟨earlier, later, rfl, hpast, hmachine, -⟩ := exists_of_moments_eq hm
  have noAssign : ∀ x, .assign x ∉ earlier := fun x hx => h x (List.mem_append_left _ hx)
  have closes : s.closes = true := by
    obtain ⟨hstep, -⟩ := eq_of_outcome? hs
    simp [Moment.closes, hstep, hs]
  have now := (reflects_session start noAssign).now
  rw [← hmachine, ← hpast, recent_append_cons_of_closes closes] at now
  exact (now.mp (ime_of_interrupted ht)).of_suffix (List.rtakeWhile_suffix _ _)

/-- **Interrupts are taken as the past of the session says.** In a session from the creation of a
processor on, in which the driver does not change the core directly, interrupts are taken from the
next instruction on if an `EI` or a `RETI` has run since they were last switched off, and they are
taken now if a `RETI` has, or an `EI` and after it any instruction. Steps in which nothing runs and
nothing is dispatched change neither.

So no interrupt is dispatched between an `EI` that finds interrupts off and the end of the
instruction after it; an `EI` does not find them off if they are on while it runs, since an earlier
`EI` comes into force with it. Nor is there one between a dispatch and what brings an `EI` or a
`RETI` into force. -/
theorem enabled_session (config : Config) (bus : β) (actions : List Action)
    (h : ∀ x, .assign x ∉ actions) :
    let fresh : Machine β := ⟨.new config, bus⟩
    let past := fresh.moments actions
    let m := (fresh.session actions).2
    (m.cpu.core.imeNext = true ↔ Asked (recent past)) ∧
    (m.cpu.core.ime = true ↔ InForce (recent past)) ∧
    (m.step.1.waits = true →
      m.step.2.cpu.core.ime = m.cpu.core.ime ∧ m.step.2.cpu.core.imeNext = m.cpu.core.imeNext) ∧
    (∀ before s between t after i, past = before ++ s :: between ++ t :: after →
      s.Runs .enableInterrupts → s.machine.cpu.core.imeNext = false →
      t.outcome? = some (.interrupted i) → ∃ u ∈ between, u.outcome? = some .executed) ∧
    (∀ before s between t after i j, past = before ++ s :: between ++ t :: after →
      s.outcome? = some (.interrupted i) → t.outcome? = some (.interrupted j) →
      InForce between) := by
  intro fresh past m
  have start : Reflects fresh.cpu.core ([] : List (Moment β)) := reflects_new config
  have reflects := reflects_session start h
  refine ⟨reflects.later, reflects.now, ?_, ?_, ?_⟩
  · intro hw
    rw [m.core_step_of_waits hw]
    exact ⟨rfl, rfl⟩
  · intro before s between t after i hpast hs off ht
    exact exists_executed_of_enables h hpast hs off ht
  · intro before s between t after i j hpast hs ht
    exact inForce_of_interrupted start h hpast hs ht

/-- A fresh processor in front of an `EI`, with an interrupt that waits for it. -/
def enabling : Machine Ram where
  cpu := .new .standard
  bus := ((Ram.zero.load 0x0100 [0xFB]).load 0xFF0F [0x01]).load 0xFFFF [0x01]

/-- The `EI` runs, then the bus is in use by someone else for a while, and then the instruction that
follows runs. -/
def enablingActions : List Action :=
  [.step, .setBlocked true, .step, .step, .setBlocked false, .step]

/-- However long the bus is held between the two, the `EI` comes into force with the instruction
that follows it. -/
theorem enabled_session_enabling :
    (∀ x, .assign x ∉ enablingActions) ∧
      (enabling.session enablingActions).1 =
        [.outcome .executed, .done, .outcome .blocked, .outcome .blocked, .done,
          .outcome .executed] ∧
      InForce (recent (enabling.moments enablingActions)) := by
  have h : ∀ x, .assign x ∉ enablingActions := by simp [enablingActions]
  have run : (enabling.session enablingActions).1 =
        [.outcome .executed, .done, .outcome .blocked, .outcome .blocked, .done,
          .outcome .executed] ∧
      (enabling.session enablingActions).2.cpu.core.ime = true := by decide +kernel
  have fresh : (⟨.new .standard, enabling.bus⟩ : Machine Ram) = enabling := rfl
  obtain ⟨-, now, -⟩ := enabled_session .standard enabling.bus enablingActions h
  rw [fresh] at now
  exact ⟨h, run.1, now.mp run.2⟩

end Machine

end GameBoy
