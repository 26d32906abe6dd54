import GoalRegression.Action.ActionSet
import GoalRegression.Action.Basic
import GoalRegression.Action.CostRule
import GoalRegression.Binary.Arithmetic
import GoalRegression.Binary.Basic
import GoalRegression.Binary.Format
import GoalRegression.Decimal.Basic
import GoalRegression.Decimal.Layout
import GoalRegression.Decimal.Read
import GoalRegression.Decimal.Shortest
import GoalRegression.Error
import GoalRegression.Inspection.Forms
import GoalRegression.Inspection.Shapes
import GoalRegression.Json.Compact
import GoalRegression.Json.Document
import GoalRegression.Json.Error
import GoalRegression.Json.Library
import GoalRegression.Json.Place
import GoalRegression.Json.Scan
import GoalRegression.Json.Settings
import GoalRegression.Json.Skip
import GoalRegression.Json.States
import GoalRegression.Json.Text
import GoalRegression.Planning.Planner
import GoalRegression.Planning.Result
import GoalRegression.Planning.Settings
import GoalRegression.PriorityQueue.Basic
import GoalRegression.Proofs.Action.Filing
import GoalRegression.Proofs.Action.Index
import GoalRegression.Proofs.Binary.Difference
import GoalRegression.Proofs.Binary.Exact
import GoalRegression.Proofs.Binary.Extended
import GoalRegression.Proofs.Binary.Order
import GoalRegression.Proofs.Binary.Rounding
import GoalRegression.Proofs.Decimal.Digits
import GoalRegression.Proofs.Decimal.Reading
import GoalRegression.Proofs.Dot.Graph
import GoalRegression.Proofs.Json.Compact
import GoalRegression.Proofs.Json.Numbers
import GoalRegression.Proofs.Json.Scan
import GoalRegression.Proofs.Json.States
import GoalRegression.Proofs.Planning.Candidates
import GoalRegression.Proofs.Planning.Completeness
import GoalRegression.Proofs.Planning.Cost
import GoalRegression.Proofs.Planning.Diagnostics
import GoalRegression.Proofs.Planning.EarlyExit
import GoalRegression.Proofs.Planning.Execution
import GoalRegression.Proofs.Planning.Interchange
import GoalRegression.Proofs.Planning.Irredundance
import GoalRegression.Proofs.Planning.Relevance
import GoalRegression.Proofs.Planning.Soundness
import GoalRegression.Proofs.Planning.Success
import GoalRegression.Proofs.Planning.Termination
import GoalRegression.Proofs.Planning.Total
import GoalRegression.Proofs.Planning.Tree
import GoalRegression.Proofs.PriorityQueue.Bucket
import GoalRegression.Proofs.PriorityQueue.Pending
import GoalRegression.Proofs.PriorityQueue.Precision
import GoalRegression.Proofs.PriorityQueue.Service
import GoalRegression.Proofs.Regression.Children
import GoalRegression.Proofs.Regression.Expansion
import GoalRegression.Proofs.Regression.Order
import GoalRegression.Proofs.Regression.Universe
import GoalRegression.Proofs.Regression.Weakest
import GoalRegression.Proofs.Search.Agreement
import GoalRegression.Proofs.Search.Ancestors
import GoalRegression.Proofs.Search.Cheapest
import GoalRegression.Proofs.Search.Consistent
import GoalRegression.Proofs.Search.Coverage
import GoalRegression.Proofs.Search.EarlyExit
import GoalRegression.Proofs.Search.Lineage
import GoalRegression.Proofs.Search.Outcome
import GoalRegression.Proofs.Search.Parents
import GoalRegression.Proofs.Search.Record
import GoalRegression.Proofs.Search.Rounds
import GoalRegression.Proofs.Search.Siblings
import GoalRegression.Proofs.Search.Turns
import GoalRegression.Proofs.Search.Valid
import GoalRegression.Proofs.Sink.Prefix
import GoalRegression.Proofs.State.Content
import GoalRegression.Proofs.State.Distance
import GoalRegression.Proofs.State.Gaps
import GoalRegression.Proofs.State.Snapshot
import GoalRegression.Proofs.State.Update
import GoalRegression.Proofs.Value.Distance
import GoalRegression.Regression.Requirements
import GoalRegression.Regression.Step
import GoalRegression.Report
import GoalRegression.Search.Dot
import GoalRegression.Search.Node
import GoalRegression.Search.Run
import GoalRegression.Search.Tree
import GoalRegression.Sink.Basic
import GoalRegression.SortedMap.Basic
import GoalRegression.SortedMap.Lemmas
import GoalRegression.State.Basic
import GoalRegression.State.Signature
import GoalRegression.Text.CodePoints
import GoalRegression.Text.Combining
import GoalRegression.Text.Printing
import GoalRegression.Text.Quoted
import GoalRegression.Value.Basic
