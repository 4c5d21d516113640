import CallFlow.Condition.Parameter
import CallFlow.Graph.Summary
import CallFlow.Http.Service
import CallFlow.Json.Reader
import CallFlow.Session
import CallFlow.Settings.Environment
import CallFlow.Proofs.Value.Outcome
import CallFlow.Proofs.Value.WellFormed
import CallFlow.Proofs.Value.Likeness
import CallFlow.Proofs.Edge.Identifier
import CallFlow.Proofs.Edge.Allocation
import CallFlow.Proofs.Edge.Projection
import CallFlow.Proofs.Graph.Agreement
import CallFlow.Proofs.Graph.Revisions
import CallFlow.Proofs.Graph.Consistency
import CallFlow.Proofs.Graph.NodeEdits
import CallFlow.Proofs.Node.Emission
import CallFlow.Proofs.Node.Dependence
import CallFlow.Proofs.Number.Numeral
import CallFlow.Proofs.Number.Shape
import CallFlow.Proofs.Number.Rounding
import CallFlow.Proofs.Number.Search
import CallFlow.Proofs.Number.Reading
import CallFlow.Proofs.Node.FieldLists
import CallFlow.Proofs.Config.Loading
import CallFlow.Proofs.Config.Settings
import CallFlow.Proofs.Config.Saving
import CallFlow.Proofs.Config.Merging
import CallFlow.Proofs.Config.Composition
import CallFlow.Proofs.Config.Likeness
import CallFlow.Proofs.Session.Consistency
import CallFlow.Proofs.Session.Agreement
import CallFlow.Proofs.Config.RoundTrip
import CallFlow.Proofs.Config.Reload
import CallFlow.Proofs.Config.Normal
import CallFlow.Proofs.Config.Unnoticed
import CallFlow.Proofs.Graph.Commuting
import CallFlow.Proofs.Graph.Directions
import CallFlow.Proofs.Workflow.Opening
import CallFlow.Proofs.Workflow.Gate
import CallFlow.Proofs.Json.Escape
import CallFlow.Proofs.Json.Delimiting
import CallFlow.Proofs.Config.Places
import CallFlow.Proofs.Json.TextKeyed
import CallFlow.Proofs.Json.Canonical
import CallFlow.Proofs.Session.History
import CallFlow.Proofs.Workflow.Dirty
import CallFlow.Proofs.Workflow.Difference
import CallFlow.Proofs.Workflow.Deployment
import CallFlow.Proofs.Workflow.ReadBack
import CallFlow.Proofs.Validation.Report
import CallFlow.Proofs.Validation.Edits
import CallFlow.Proofs.Config.Scratch
import CallFlow.Proofs.Config.Inherited
import CallFlow.Proofs.Http.Framework
import CallFlow.Proofs.Http.Sendable
import CallFlow.Proofs.Http.Stability
import CallFlow.Proofs.Http.Typed
import CallFlow.Proofs.Http.Parts
import CallFlow.Proofs.Http.Answers
import CallFlow.Proofs.Http.StandIn
import CallFlow.Proofs.Http.Transparency
import CallFlow.Proofs.Http.RoundTrip
import CallFlow.Proofs.Http.Convergence
import CallFlow.Proofs.Condition.Codec
import CallFlow.Proofs.Condition.Parameter
import CallFlow.Proofs.Graph.Retained
import CallFlow.Proofs.Graph.Synchronisation
import CallFlow.Proofs.Graph.Relabelling
import CallFlow.Proofs.Graph.Removal
import CallFlow.Proofs.Graph.Relisting
import CallFlow.Proofs.Session.Edits
import CallFlow.Proofs.Session.Selection
import CallFlow.Proofs.Session.Faults
import CallFlow.Proofs.Session.Undo
import CallFlow.Proofs.Session.Dangling
import CallFlow.Proofs.Session.Addition
import CallFlow.Proofs.Session.Missing
import CallFlow.Proofs.Session.Deselection
import CallFlow.Proofs.Session.Identity
import CallFlow.Proofs.Layout.Distance
import CallFlow.Proofs.Layout.Ranking
import CallFlow.Proofs.Config.Faults
import CallFlow.Proofs.Config.Numbering
import CallFlow.Proofs.Layout.Apart
import CallFlow.Proofs.Workflow.Faults
