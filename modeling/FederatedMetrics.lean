import FederatedMetrics.Http.Service
import FederatedMetrics.Settings.Basic
import FederatedMetrics.Proofs.Ordered
import FederatedMetrics.Proofs.Table.Columns
import FederatedMetrics.Proofs.Table.Harmonize
import FederatedMetrics.Proofs.Record.Answer
import FederatedMetrics.Proofs.Time.Walk
import FederatedMetrics.Proofs.Record.Counting
import FederatedMetrics.Proofs.Derived.Definition
import FederatedMetrics.Proofs.Plan.Resolving
import FederatedMetrics.Proofs.Plan.Broadcast
import FederatedMetrics.Proofs.Plan.Localize
import FederatedMetrics.Proofs.Formula.Expr
import FederatedMetrics.Proofs.Table.Align
import FederatedMetrics.Proofs.Executor
import FederatedMetrics.Proofs.Engine.Execution
import FederatedMetrics.Proofs.Engine.Globals
import FederatedMetrics.Proofs.Engine.Schedule
import FederatedMetrics.Proofs.Engine.Outcome
import FederatedMetrics.Proofs.Plan.Faults
import FederatedMetrics.Proofs.Engine.Status
import FederatedMetrics.Proofs.Mapping.Store
import FederatedMetrics.Proofs.Workspace.Reached
import FederatedMetrics.Proofs.Mapping.Coverage
import FederatedMetrics.Proofs.Requirement
import FederatedMetrics.Proofs.Mapping.Validity
import FederatedMetrics.Proofs.Workspace.Clients
import FederatedMetrics.Proofs.Derived.Store
import FederatedMetrics.Proofs.Workspace.Definitions
import FederatedMetrics.Proofs.Engine.Members
import FederatedMetrics.Proofs.Engine.Agreement
import FederatedMetrics.Proofs.Workspace.View
import FederatedMetrics.Proofs.Workspace.Isolation
import FederatedMetrics.Proofs.Record.Reference
import FederatedMetrics.Proofs.Table.RowOrder
import FederatedMetrics.Proofs.Engine.CombinedView
import FederatedMetrics.Proofs.Query.Codec
import FederatedMetrics.Proofs.Plan.Narrowing
import FederatedMetrics.Proofs.Formula.Scanning
import FederatedMetrics.Proofs.Query.Forms
import FederatedMetrics.Proofs.Table.Numbers
import FederatedMetrics.Proofs.Plan.Names
import FederatedMetrics.Proofs.Mapping.Lookups
import FederatedMetrics.Proofs.Workspace.Resolver
import FederatedMetrics.Proofs.Workspace.Accounts
import FederatedMetrics.Proofs.Engine.CombineSafety
import FederatedMetrics.Proofs.Table.OuterJoin
import FederatedMetrics.Proofs.Decimal.Exact
import FederatedMetrics.Proofs.Table.ColumnOrder
import FederatedMetrics.Proofs.Table.SumJoin
import FederatedMetrics.Proofs.Record.Nulls
import FederatedMetrics.Proofs.FilterValues
import FederatedMetrics.Proofs.Formula.Rendering
import FederatedMetrics.Proofs.Formula.Descent
import FederatedMetrics.Proofs.Text.ByteOrder
import FederatedMetrics.Proofs.Time.Tiling
import FederatedMetrics.Proofs.Time.Overrun
import FederatedMetrics.Proofs.Workspace.Names
import FederatedMetrics.Proofs.Formula.Evaluation
