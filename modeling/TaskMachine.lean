import TaskMachine.Instruction.Assembly
import TaskMachine.Instruction.Text
import TaskMachine.Value.Text
import TaskMachine.Decimal.Shortest
import TaskMachine.Execution.Solo
import TaskMachine.Scheduler.Report
import TaskMachine.Wire.Codec
import TaskMachine.Pool.Joining
import TaskMachine.Pool.Report
import TaskMachine.Proofs.Inbox.Traffic
import TaskMachine.Proofs.Inbox.Order
import TaskMachine.Proofs.After
import TaskMachine.Proofs.Execution.Charges
import TaskMachine.Proofs.Execution.Slices
import TaskMachine.Proofs.Execution.Formed
import TaskMachine.Proofs.Execution.Calls
import TaskMachine.Proofs.Roster.Counted
import TaskMachine.Proofs.Roster.Frames
import TaskMachine.Proofs.Roster.Lined
import TaskMachine.Proofs.Roster.Moves
import TaskMachine.Proofs.Roster.Queued
import TaskMachine.Proofs.Scheduler.Departures
import TaskMachine.Proofs.Scheduler.Endings
import TaskMachine.Proofs.Scheduler.Exchange
import TaskMachine.Proofs.Scheduler.Passes
import TaskMachine.Proofs.Scheduler.Sweeps
import TaskMachine.Proofs.Scheduler.Waiting
import TaskMachine.Proofs.Scheduler.Wakeups
import TaskMachine.Proofs.Session.Accounts
import TaskMachine.Proofs.Session.Exchanges
import TaskMachine.Proofs.Session.Orphans
import TaskMachine.Proofs.Session.Queues
import TaskMachine.Proofs.Session.Numbers
import TaskMachine.Proofs.Session.Rounds
import TaskMachine.Proofs.Agenda.Replies
import TaskMachine.Proofs.Session.Releases
import TaskMachine.Proofs.Session.Sleepers
import TaskMachine.Proofs.Pool.Answers
import TaskMachine.Proofs.Execution.Ground
import TaskMachine.Proofs.Execution.Faults
import TaskMachine.Proofs.Execution.Limits
import TaskMachine.Proofs.Pool.Whole
import TaskMachine.Proofs.Inbox.Heard
import TaskMachine.Proofs.Inbox.Line
import TaskMachine.Proofs.Scheduler.Quiet
import TaskMachine.Proofs.Scheduler.Gaps
import TaskMachine.Proofs.Session.Moments
import TaskMachine.Proofs.Session.Effects
import TaskMachine.Proofs.Session.Deliveries
import TaskMachine.Proofs.Session.Standing
import TaskMachine.Proofs.Session.Reports
import TaskMachine.Proofs.Session.Fairness
import TaskMachine.Proofs.Session.Commuting
import TaskMachine.Proofs.Session.Isolation
import TaskMachine.Proofs.Instruction.Encoding
import TaskMachine.Proofs.Instruction.Listing
import TaskMachine.Proofs.Agenda.Draining
import TaskMachine.Proofs.Agenda.Stranded
import TaskMachine.Proofs.Session.Refusals
import TaskMachine.Proofs.Text.Longest
import TaskMachine.Proofs.Pool.Strides
import TaskMachine.Proofs.Pool.Deeds
import TaskMachine.Proofs.Pool.Verdicts
import TaskMachine.Proofs.Session.Farewells
import TaskMachine.Proofs.Pool.Intake
import TaskMachine.Proofs.Pool.Tallies
import TaskMachine.Proofs.Pool.Promises
import TaskMachine.Proofs.Pool.Loads
import TaskMachine.Proofs.Roster.Rota
import TaskMachine.Proofs.Session.Cascades
