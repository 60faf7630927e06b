import WorkflowScript.Main
import WorkflowScript.Measure
import WorkflowScript.Transform.Rules
import WorkflowScript.Workflow.Assembly
import WorkflowScript.Proofs.Session.Soundness
import WorkflowScript.Proofs.Target.Decoding
import WorkflowScript.Proofs.Transform.Agreement
import WorkflowScript.Proofs.Workflow.Formatting
import WorkflowScript.Proofs.Workflow.Joining
import WorkflowScript.Proofs.Workflow.Layout
import WorkflowScript.Proofs.Workflow.Truncation
import WorkflowScript.Proofs.Session.Interchange
import WorkflowScript.Proofs.Token.Classes
import WorkflowScript.Proofs.Encoding.Recovery
import WorkflowScript.Proofs.Encoding.Faithful
import WorkflowScript.Proofs.Parser.Congruence
import WorkflowScript.Proofs.Workflow.Congruence
import WorkflowScript.Grammar.Recording
import WorkflowScript.Proofs.Nesting.Count
import WorkflowScript.Proofs.Nesting.Tracking
import WorkflowScript.Proofs.Nesting.Depth
import WorkflowScript.Proofs.Nesting.Exact
import WorkflowScript.Proofs.Target.Scoping
import WorkflowScript.Transform.Budget
import WorkflowScript.Proofs.Transform.Extension
import WorkflowScript.Proofs.Transform.Termination
import WorkflowScript.Transform.Preorder
import WorkflowScript.Proofs.Transform.Order
import WorkflowScript.Workflow.Landmarks
import WorkflowScript.Proofs.Workflow.Landmarks
import WorkflowScript.Transform.Renaming
import WorkflowScript.Proofs.Transform.Renaming
import WorkflowScript.Proofs.Target.Capture
import WorkflowScript.Proofs.Target.Lines
import WorkflowScript.Proofs.Parser.Reports
import WorkflowScript.Proofs.Workflow.Log
import WorkflowScript.Fragment.Labels
import WorkflowScript.Proofs.Workflow.Labels
import WorkflowScript.Proofs.Workflow.Relabelling
import WorkflowScript.Proofs.Workflow.Skeletons
import WorkflowScript.Grammar.Tracing
import WorkflowScript.Proofs.Session.Sentences
import WorkflowScript.Proofs.Session.Lookahead
