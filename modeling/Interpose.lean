import Interpose.Call.Bridge
import Interpose.Call.Decision
import Interpose.Call.Dispatcher
import Interpose.Call.Overload
import Interpose.Call.Resolution
import Interpose.Call.Site
import Interpose.Decimal.Shortest
import Interpose.Distinct
import Interpose.Error
import Interpose.Event
import Interpose.Execution.Journal
import Interpose.Execution.Machine
import Interpose.Execution.Program
import Interpose.Hierarchy.Basic
import Interpose.Hierarchy.Conversion
import Interpose.Hierarchy.Decl
import Interpose.KeyMap
import Interpose.Kind
import Interpose.Memory
import Interpose.Method
import Interpose.Pool.Basic
import Interpose.Pool.Crew
import Interpose.Pool.Lending
import Interpose.Proofs.Data.Containers
import Interpose.Proofs.Dispatch.Bridges
import Interpose.Proofs.Dispatch.ExactMatch
import Interpose.Proofs.Dispatch.Exposure
import Interpose.Proofs.Dispatch.Finality
import Interpose.Proofs.Dispatch.Holdings
import Interpose.Proofs.Dispatch.Lookup
import Interpose.Proofs.Dispatch.Origins
import Interpose.Proofs.Dispatch.Precision
import Interpose.Proofs.Dispatch.RealCalls
import Interpose.Proofs.Dispatch.Selection
import Interpose.Proofs.Dispatch.Soundness
import Interpose.Proofs.Dispatch.Specificity
import Interpose.Proofs.Dispatch.Steps
import Interpose.Proofs.Dispatch.Transparency
import Interpose.Proofs.Dispatch.Winners
import Interpose.Proofs.Execution.Alike
import Interpose.Proofs.Execution.Announcements
import Interpose.Proofs.Execution.BridgeCalls
import Interpose.Proofs.Execution.CallThrough
import Interpose.Proofs.Execution.Calls
import Interpose.Proofs.Execution.Crossing
import Interpose.Proofs.Execution.HeldTargets
import Interpose.Proofs.Execution.InForce
import Interpose.Proofs.Execution.Kept
import Interpose.Proofs.Execution.Moments
import Interpose.Proofs.Execution.Moves
import Interpose.Proofs.Execution.Traces
import Interpose.Proofs.Hierarchy.Conversions
import Interpose.Proofs.Hierarchy.Fields
import Interpose.Proofs.Hierarchy.Grading
import Interpose.Proofs.Hierarchy.Validation
import Interpose.Proofs.Hierarchy.Walks
import Interpose.Proofs.Pool.CrewEnds
import Interpose.Proofs.Pool.CrewTraffic
import Interpose.Proofs.Pool.Crews
import Interpose.Proofs.Pool.Exclusivity
import Interpose.Proofs.Pool.Health
import Interpose.Proofs.Pool.ReleaseOrder
import Interpose.Proofs.Pool.Returns
import Interpose.Proofs.Pool.Room
import Interpose.Proofs.Pool.Rounds
import Interpose.Proofs.Pool.Traffic
import Interpose.Proofs.Pool.Waiting
import Interpose.Proofs.Pool.Wakeups
import Interpose.Proofs.Registry.Building
import Interpose.Proofs.Registry.Swaps
import Interpose.Proofs.Registry.Tiers
import Interpose.Proofs.Rules.DecisionOrder
import Interpose.Proofs.Sandbox.Cleanliness
import Interpose.Proofs.Sandbox.Configured
import Interpose.Proofs.Sandbox.Events
import Interpose.Proofs.Sandbox.Fitness
import Interpose.Proofs.Sandbox.Histories
import Interpose.Proofs.Sandbox.Isolation
import Interpose.Proofs.Sandbox.LeakFinding
import Interpose.Proofs.Sandbox.Lifecycle
import Interpose.Proofs.Sandbox.Lives
import Interpose.Proofs.Sandbox.Objects
import Interpose.Proofs.Sandbox.Operations
import Interpose.Proofs.Sandbox.Readiness
import Interpose.Proofs.Sandbox.Resetting
import Interpose.Proofs.Sandbox.Routing
import Interpose.Proofs.Sandbox.Statics
import Interpose.Proofs.Sandbox.Validity
import Interpose.Proofs.Sandbox.Verdicts
import Interpose.Proofs.Testing.Accounts
import Interpose.Proofs.Testing.ChosenLevels
import Interpose.Proofs.Testing.Endings
import Interpose.Proofs.Testing.Executions
import Interpose.Proofs.Testing.Handles
import Interpose.Proofs.Testing.Interception
import Interpose.Proofs.Testing.Merging
import Interpose.Proofs.Testing.Outcomes
import Interpose.Proofs.Testing.Precedence
import Interpose.Proofs.Testing.Registries
import Interpose.Proofs.Testing.RegistryCache
import Interpose.Proofs.Testing.Sandboxes
import Interpose.Proofs.Testing.Sharing
import Interpose.Proofs.Testing.Tracking
import Interpose.Proofs.Testing.Turns
import Interpose.Proofs.Testing.Usage
import Interpose.Refusal
import Interpose.Registry.Basic
import Interpose.Registry.Binding
import Interpose.Registry.Staging
import Interpose.Rules
import Interpose.Sandbox.Basic
import Interpose.Sandbox.LeakCheck
import Interpose.Sandbox.Lifecycle
import Interpose.Sandbox.Pristine
import Interpose.Sandbox.Stage
import Interpose.Script.Expr
import Interpose.Script.Meaning
import Interpose.Shadow
import Interpose.Table
import Interpose.Testing.Harness
import Interpose.Testing.Levels
import Interpose.Testing.Overrides
import Interpose.Testing.Settings
import Interpose.Text.Duration
import Interpose.Text.Layout
import Interpose.Text.Quoted
import Interpose.Text.Unprintable
import Interpose.Value
