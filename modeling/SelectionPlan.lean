import SelectionPlan.Main
import SelectionPlan.Plan.Document
import SelectionPlan.Plan.Sorted
import SelectionPlan.Resolve.Json
import SelectionPlan.Selection.Json
import SelectionPlan.Proofs.Selection.Grammar
import SelectionPlan.Proofs.Selection.Reading
import SelectionPlan.Proofs.Selection.Exactness
import SelectionPlan.Proofs.Selection.Nesting
import SelectionPlan.Proofs.Selection.Parsing
import SelectionPlan.Proofs.Selection.Completion
import SelectionPlan.Proofs.Selection.Progress
import SelectionPlan.Proofs.Path.Children
import SelectionPlan.Proofs.Plan.Assembly
import SelectionPlan.Proofs.Plan.Levels
import SelectionPlan.Proofs.Selection.Bodies
import SelectionPlan.Proofs.Resolve.Faults
import SelectionPlan.Proofs.Schema.Flatten
import SelectionPlan.Proofs.Resolve.Flattening
import SelectionPlan.Proofs.Path.Apart
import SelectionPlan.Proofs.Plan.Document
import SelectionPlan.Proofs.Resolve.Collisions
import SelectionPlan.Proofs.Resolve.Reached
import SelectionPlan.Proofs.Resolve.Populated
import SelectionPlan.Proofs.Plan.Strands
import SelectionPlan.Proofs.Resolve.Retracing
import SelectionPlan.Proofs.Resolve.Consistency
import SelectionPlan.Proofs.Resolve.Depth
import SelectionPlan.Proofs.Resolve.Order
import SelectionPlan.Proofs.Config.Building
import SelectionPlan.Proofs.Resolve.Strictness
import SelectionPlan.Proofs.Config.Contents
import SelectionPlan.Proofs.Config.Compiled
import SelectionPlan.Proofs.Config.Outcome
import SelectionPlan.Proofs.Dictionaries
import SelectionPlan.Proofs.Config.Afresh
import SelectionPlan.Proofs.Config.DocumentKeys
import SelectionPlan.Proofs.Config.Objects
import SelectionPlan.Proofs.Config.Members
import SelectionPlan.Proofs.Path.Partition
import SelectionPlan.Proofs.Selection.Rendering
import SelectionPlan.Proofs.Selection.Budget
import SelectionPlan.Proofs.Json.Readers
import SelectionPlan.Proofs.Config.Fields
import SelectionPlan.Proofs.Config.ReadBack
import SelectionPlan.Proofs.Selection.Joining
import SelectionPlan.Proofs.Resolve.Joining
import SelectionPlan.Proofs.Resolve.Registering
import SelectionPlan.Proofs.Schema.Calls
import SelectionPlan.Proofs.Config.Layout
import SelectionPlan.Proofs.Resolve.Everything
import SelectionPlan.Proofs.Plan.Canonical
import SelectionPlan.Proofs.Plan.Recovery
import SelectionPlan.Proofs.Config.Shapes
import SelectionPlan.Proofs.Json.Restating
import SelectionPlan.Proofs.CommandLine
