import GameBoy.Cpu.Query
import GameBoy.Cpu.Run
import GameBoy.Bus.Recorded
import GameBoy.Bus.Scheduled
import GameBoy.Bus.Untimed
import GameBoy.Session
import GameBoy.Snapshot
import GameBoy.Proofs.Bus.Traffic
import GameBoy.Proofs.Debugger.Transparency
import GameBoy.Proofs.Debugger.Trapped
import GameBoy.Proofs.Decoder.Failure
import GameBoy.Proofs.Step.Outcome
import GameBoy.Proofs.Instruction.Switches
import GameBoy.Proofs.Session.Enabling
import GameBoy.Proofs.Session.Reset
import GameBoy.Proofs.Interrupt.Dispatch
import GameBoy.Proofs.Interrupt.Requests
import GameBoy.Proofs.Session.Suspension
import GameBoy.Proofs.Debugger.Unmarked
import GameBoy.Proofs.Session.BusTaken
import GameBoy.Proofs.Session.CleanFlags
import GameBoy.Proofs.Debugger.Untraced
import GameBoy.Proofs.Debugger.Chronicle
import GameBoy.Proofs.Decoder.Slots
import GameBoy.Proofs.Step.Timing
import GameBoy.Proofs.Step.Advance
import GameBoy.Proofs.Alu.Decimal
import GameBoy.Proofs.Step.Effect
import GameBoy.Proofs.Step.Return
import GameBoy.Proofs.Disassembly.Agreement
import GameBoy.Proofs.Run.UntilHalt
import GameBoy.Proofs.Run.Budget
import GameBoy.Proofs.Session.Idle
import GameBoy.Proofs.Session.Lengths
import GameBoy.Proofs.Step.WideSum
import GameBoy.Proofs.Alu.Shifts
import GameBoy.Proofs.Session.Breakpoints
import GameBoy.Proofs.Instruction.Stack
import GameBoy.Proofs.Bus.Loading
