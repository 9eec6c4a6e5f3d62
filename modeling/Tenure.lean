import Tenure.Saturating
import Tenure.Pause
import Tenure.Notice
import Tenure.Mismatch
import Tenure.Text.Blank
import Tenure.Text.Printable
import Tenure.Text.Quoted
import Tenure.Text.Alphanumeric
import Tenure.Text.Terminal
import Tenure.Decimal.Shortest
import Tenure.Decimal.Text
import Tenure.Decimal.Reading
import Tenure.Json.Token
import Tenure.Json.Reader
import Tenure.Json.Writer
import Tenure.Json.Value
import Tenure.Toml.Document
import Tenure.Toml.Parser
import Tenure.Store.Error
import Tenure.Store.Basic
import Tenure.Store.Wire
import Tenure.Store.Channel
import Tenure.Lease.Timing
import Tenure.Lease.Record
import Tenure.Lease.Error
import Tenure.Lease.Wire
import Tenure.Lease.Lock
import Tenure.Election.State
import Tenure.Election.Elector
import Tenure.Barrier
import Tenure.Work.Queue
import Tenure.Work.Pool
import Tenure.Config.Basic
import Tenure.Config.Layers
import Tenure.Coordinator
import Tenure.Simulation.Scheduler
import Tenure.Simulation.LockSession
import Tenure.Simulation.Line
import Tenure.Simulation.Scene
import Tenure.Simulation.ElectorTrial
import Tenure.Simulation.BarrierTrial
import Tenure.Simulation.QueueTrial
import Tenure.Simulation.Crew
import Tenure.Simulation.PoolTrial
import Tenure.Simulation.ReplicaTrial
import Tenure.Simulation.FreeRun
import Tenure.Simulation.BareHost
import Tenure.CommandLine.Arguments
import Tenure.CommandLine.Log
import Tenure.CommandLine.Pattern
import Tenure.CommandLine.Filter
import Tenure.CommandLine.Launch
import Tenure.CommandLine.Demo
import Tenure.Main
import Tenure.Proofs.Json.Grammar
import Tenure.Proofs.Json.Scanning
import Tenure.Proofs.Json.Skipping
import Tenure.Proofs.Json.Reading
import Tenure.Proofs.Json.RoundTrip
import Tenure.Proofs.Store.Wire
import Tenure.Proofs.Lease.RecordText
import Tenure.Proofs.Lease.Interchange
import Tenure.Proofs.Lease.Decision
import Tenure.Proofs.Lease.Layout
import Tenure.Proofs.Lease.Contention
import Tenure.Proofs.Lease.Fencing
import Tenure.Proofs.Lease.Tenancy
import Tenure.Proofs.Lease.Overwriting
import Tenure.Proofs.Election.Turn
import Tenure.Proofs.Election.Contest
import Tenure.Proofs.Election.Exclusion
import Tenure.Proofs.Trail
import Tenure.Proofs.Work.Members
import Tenure.Proofs.Election.Observations
import Tenure.Proofs.Election.Protocol
import Tenure.Proofs.Election.ReplicaWithOthers
import Tenure.Proofs.Election.Draining
import Tenure.Proofs.Election.Ending
import Tenure.Proofs.Election.ElectorWithStore
import Tenure.Proofs.Election.LeftLease
import Tenure.Proofs.Coordination.Observations
import Tenure.Proofs.Coordination.Handing
import Tenure.Proofs.Coordination.Rounds
import Tenure.Proofs.Coordination.Handover
import Tenure.Proofs.Coordination.Leaving
import Tenure.Proofs.Coordination.Failing
import Tenure.Proofs.Coordination.Results
import Tenure.Proofs.Store.History
import Tenure.Proofs.Lease.Rule
import Tenure.Proofs.Lease.Undisturbed
import Tenure.Proofs.Lease.Interleaving
import Tenure.Proofs.Lease.Isolation
import Tenure.Proofs.Lease.Racing
import Tenure.Proofs.Election.WithinLease
import Tenure.Proofs.Work.Seeking
import Tenure.Proofs.Work.LostWakeup
import Tenure.Proofs.Work.Doing
import Tenure.Proofs.Work.QueueWithPools
import Tenure.Proofs.Work.Stopping
import Tenure.Proofs.Work.Keeping
import Tenure.Proofs.Work.Delivery
import Tenure.Proofs.Coordination.Waiting
import Tenure.Proofs.Election.Pacing
import Tenure.Proofs.Toml.Naming
import Tenure.Proofs.Config.Precedence
import Tenure.Proofs.Lease.Doubling
