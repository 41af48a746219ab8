import Admission.Category
import Admission.Category.Durations
import Admission.Category.Popularity
import Admission.Config
import Admission.Config.Json
import Admission.Controller
import Admission.Controller.Admit
import Admission.Controller.Settle
import Admission.Controller.Snapshot
import Admission.Controller.Sweep
import Admission.Decimal.Double
import Admission.Decimal.Shortest
import Admission.Engine
import Admission.Engine.InFlight
import Admission.Environment
import Admission.Error
import Admission.EventId
import Admission.Files
import Admission.History
import Admission.Json
import Admission.Json.Parser
import Admission.Json.Printer
import Admission.Json.Record
import Admission.Ledger
import Admission.NameMap
import Admission.Notice
import Admission.Overload
import Admission.Pool
import Admission.Pool.Config
import Admission.Registry
import Admission.Report
import Admission.Scalar
import Admission.Settings
import Admission.Simulation.Command
import Admission.Simulation.EngineBench
import Admission.Simulation.Play
import Admission.Simulation.Reply
import Admission.Simulation.Setup
import Admission.Simulation.WatchBench
import Admission.Simulation.Watching
import Admission.Simulation.WorkBench
import Admission.Simulation.Workplace
import Admission.Simulation.World
import Admission.Submission
import Admission.Text.Alphanumeric
import Admission.Text.CodePoints
import Admission.Text.Printable
import Admission.Text.Shape
import Admission.Time
import Admission.Watchdog
import Admission.Work
import Admission.Proofs.Runs
import Admission.Proofs.Ledger
import Admission.Proofs.Account
import Admission.Proofs.Balance
import Admission.Proofs.Custody
import Admission.Proofs.Activity
import Admission.Proofs.Uninterrupted
import Admission.Proofs.Accounting
import Admission.Proofs.Settlement
import Admission.Proofs.Alteration
import Admission.Proofs.Sums
import Admission.Proofs.Holding
import Admission.Proofs.Lifetime
import Admission.Proofs.Recording
import Admission.Proofs.Submission
import Admission.Proofs.Advance
import Admission.Proofs.Lasting
import Admission.Proofs.Decision
import Admission.Proofs.Shares
import Admission.Proofs.Ceiling
import Admission.Proofs.Refusal
import Admission.Proofs.Scheduler
import Admission.Proofs.Tokens
import Admission.Proofs.Grammar
import Admission.Proofs.Spelling
import Admission.Proofs.Staleness
import Admission.Proofs.Apportionment
import Admission.Proofs.Collecting
import Admission.Proofs.Conservation
import Admission.Proofs.Reclaiming
import Admission.Proofs.Workforce
import Admission.Proofs.Writing
import Admission.Proofs.Dispatch
import Admission.Proofs.Draining
import Admission.Proofs.Reordering
import Admission.Proofs.Filling
import Admission.Proofs.RoundTrip
import Admission.Proofs.Windows
import Admission.Proofs.Forgetting
import Admission.Proofs.Course
import Admission.Proofs.Folding
import Admission.Proofs.Speed
import Admission.Proofs.Hysteresis
import Admission.Proofs.Telling
import Admission.Proofs.Failure
import Admission.Proofs.SweepOrder
import Admission.Proofs.Completion
import Admission.Proofs.Bursts
import Admission.Proofs.Permits
import Admission.Proofs.Directory
import Admission.Proofs.Roll
import Admission.Proofs.Vigil
import Admission.Proofs.Overlay
import Admission.Proofs.Outcomes
import Admission.Proofs.Aftermath
import Admission.Proofs.Peaks
import Admission.Proofs.Divisors
import Admission.Proofs.Moderation
import Admission.Proofs.Words
import Admission.Proofs.Capacity
import Admission.Proofs.Registration
