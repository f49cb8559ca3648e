import GameBoy.Cpu.Run
import GameBoy.Proofs.Session.Moments

/-!
# Orders

A driver that does not want to make every step on its own lets the machine run, until the processor
no longer runs or on a budget of clock cycles. An *order* is an action or such a run.

Runs are steps in a row (`GameBoy.Machine.exists_session_obey`), so that orders lead to nothing that
actions do not lead to: the machine after some orders is the machine at the end of a session
(`GameBoy.Machine.exists_session_after`). What a session can never do, orders can never do.
-/

namespace GameBoy

/-- **One thing that a driver asks for**: an action, or as many steps as it takes. -/
inductive Order where
  | act (action : Action)
  /-- Steps until the processor no longer runs, up to a limit. -/
  | runUntilHalt (limit : Nat)
  /-- Steps until a number of clock cycles has passed. -/
  | runFor (cycles : Nat)
  deriving DecidableEq, Repr

/-- **What comes back from an order.** -/
inductive Answer where
  | reply (reply : Reply)
  /-- A number of steps, or of clock cycles. -/
  | count (n : Nat)
  deriving DecidableEq, Repr

namespace Machine

variable {β : Type} [Bus β]

/-- **One order**, and the answer to it. -/
def obey (m : Machine β) : Order → Answer × Machine β
  | .act action =>
    let (reply, m) := m.act action
    (.reply reply, m)
  | .runUntilHalt limit =>
    let (count, m) := m.runUntilHalt limit
    (.count count, m)
  | .runFor cycles =>
    let (count, m) := m.runFor cycles
    (.count count, m)

/-- The machine after some orders. -/
def after (m : Machine β) (orders : List Order) : Machine β :=
  orders.foldl (fun m o => (m.obey o).2) m

/-- **The account of some orders**: each of them with the answer, and the machine after it. -/
def account (m : Machine β) : List Order → List (Order × Answer × Machine β)
  | [] => []
  | order :: rest =>
    let (answer, next) := m.obey order
    (order, answer, next) :: next.account rest

/-! ### Runs are sessions -/

/-- A run until the processor no longer runs is as many steps as it says. -/
theorem session_runUntilHalt (m : Machine β) (limit : Nat) :
    (m.session (List.replicate (m.runUntilHalt limit).1 .step)).2 = (m.runUntilHalt limit).2 := by
  induction limit generalizing m with
  | zero => rfl
  | succ limit ih =>
    rw [runUntilHalt]
    split
    · exact ih m.step.2
    · rfl

/-- A run to a point in time is a number of steps. -/
theorem exists_session_runUntil (target : Clock) (m : Machine β) :
    ∃ count, (m.session (List.replicate count .step)).2 = m.runUntil target := by
  fun_induction runUntil target m with
  | case1 m early next step => exact ⟨1, congrArg (·.2) step⟩
  | case2 m early outcome next step trapped ih =>
    obtain ⟨count, hcount⟩ := ih
    refine ⟨count + 1, Eq.trans ?_ hcount⟩
    rw [List.replicate_succ, session, act, step]
  | case3 m late => exact ⟨0, rfl⟩

/-- **An order is a session of its own.** -/
theorem exists_session_obey (m : Machine β) (order : Order) :
    ∃ actions, (m.session actions).2 = (m.obey order).2 := by
  cases order with
  | act action => exact ⟨[action], rfl⟩
  | runUntilHalt limit => exact ⟨_, m.session_runUntilHalt limit⟩
  | runFor cycles =>
    obtain ⟨count, hcount⟩ := exists_session_runUntil (m.cpu.clock.advance cycles) m
    exact ⟨_, hcount⟩

/-- **Orders lead to nothing that actions do not lead to.** -/
theorem exists_session_after (m : Machine β) (orders : List Order) :
    ∃ actions, (m.session actions).2 = m.after orders := by
  induction orders generalizing m with
  | nil => exact ⟨[], rfl⟩
  | cons order rest ih =>
    obtain ⟨first, hfirst⟩ := m.exists_session_obey order
    obtain ⟨later, hlater⟩ := ih (m.obey order).2
    refine ⟨first ++ later, ?_⟩
    rw [session_append, hfirst]
    exact hlater

end Machine

end GameBoy
