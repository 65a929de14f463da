import WorkflowTree.CommandLine.Arguments
import WorkflowTree.CommandLine.Failure
import WorkflowTree.CommandLine.Graphic
import WorkflowTree.CommandLine.Report
import WorkflowTree.CommandLine.Run
import WorkflowTree.Dump.Json
import WorkflowTree.Dump.Value
import WorkflowTree.Dump.Yaml
import WorkflowTree.Edit.Job
import WorkflowTree.Edit.Step
import WorkflowTree.Edit.Unique
import WorkflowTree.Edit.Workflow
import WorkflowTree.Files.Listing
import WorkflowTree.Files.Path
import WorkflowTree.Files.Pattern
import WorkflowTree.Files.Search
import WorkflowTree.Files.Selection
import WorkflowTree.Files.System
import WorkflowTree.Files.Tree
import WorkflowTree.Keyed
import WorkflowTree.Main
import WorkflowTree.Node
import WorkflowTree.Number.Binary64
import WorkflowTree.Number.Decimal
import WorkflowTree.Number.Integer
import WorkflowTree.Number.Shortest
import WorkflowTree.Policy
import WorkflowTree.Policy.Text
import WorkflowTree.Position
import WorkflowTree.Problem
import WorkflowTree.Reading.Checked
import WorkflowTree.Reading.Container
import WorkflowTree.Reading.Job
import WorkflowTree.Reading.Scalar
import WorkflowTree.Reading.Section
import WorkflowTree.Reading.Settings
import WorkflowTree.Reading.Step
import WorkflowTree.Reading.Strategy
import WorkflowTree.Reading.Trigger
import WorkflowTree.Reading.Workflow
import WorkflowTree.Workflow
import WorkflowTree.Workflow.Container
import WorkflowTree.Workflow.Job
import WorkflowTree.Workflow.Permissions
import WorkflowTree.Workflow.Runner
import WorkflowTree.Workflow.Settings
import WorkflowTree.Workflow.Step
import WorkflowTree.Workflow.Strategy
import WorkflowTree.Workflow.Trigger
import WorkflowTree.Yaml.Assembly
import WorkflowTree.Yaml.Candidate
import WorkflowTree.Yaml.Character
import WorkflowTree.Yaml.Cursor
import WorkflowTree.Yaml.Document
import WorkflowTree.Yaml.Event
import WorkflowTree.Yaml.Flaw
import WorkflowTree.Yaml.Grammar
import WorkflowTree.Yaml.Lexer
import WorkflowTree.Yaml.Property
import WorkflowTree.Yaml.Scalar.Block
import WorkflowTree.Yaml.Scalar.Gap
import WorkflowTree.Yaml.Scalar.Plain
import WorkflowTree.Yaml.Scalar.Quoted
import WorkflowTree.Yaml.Token
import WorkflowTree.Yaml.Undecodable
import WorkflowTree.Yaml11.Character
import WorkflowTree.Yaml11.Document
import WorkflowTree.Yaml11.Lexer
import WorkflowTree.Yaml11.Property
import WorkflowTree.Yaml11.Scalar.Block
import WorkflowTree.Yaml11.Scalar.Plain
import WorkflowTree.Proofs.Grammar.Shape
import WorkflowTree.Proofs.Grammar.Workflow
import WorkflowTree.Proofs.Grammar.Pruning
import WorkflowTree.Proofs.Grammar.Schema
import WorkflowTree.Proofs.Reading.Clean
import WorkflowTree.Proofs.Reading.Section
import WorkflowTree.Proofs.Reading.Form
import WorkflowTree.Proofs.Acceptance.Scalar
import WorkflowTree.Proofs.Acceptance.Settings
import WorkflowTree.Proofs.Acceptance.Trigger
import WorkflowTree.Proofs.Acceptance.Step
import WorkflowTree.Proofs.Acceptance.Job
import WorkflowTree.Proofs.Acceptance.Workflow
import WorkflowTree.Proofs.Reporting.Log
import WorkflowTree.Proofs.Reporting.Losses
import WorkflowTree.Proofs.Reporting.Budget
import WorkflowTree.Proofs.Yaml.Tree
import WorkflowTree.Proofs.Yaml.Expansion
import WorkflowTree.Proofs.Yaml.Size
import WorkflowTree.Proofs.Leniency.Tolerance
import WorkflowTree.Proofs.Leniency.Readers
import WorkflowTree.Proofs.Leniency.Selection
import WorkflowTree.Proofs.Leniency.Pruning
import WorkflowTree.Proofs.Leniency.Workflow
import WorkflowTree.Proofs.Provenance.Leaf
import WorkflowTree.Proofs.Provenance.Evidence
import WorkflowTree.Proofs.Provenance.Readers
import WorkflowTree.Proofs.Provenance.Workflow
import WorkflowTree.Proofs.Meaning.Source
import WorkflowTree.Proofs.Meaning.Part
import WorkflowTree.Proofs.Meaning.Sound
import WorkflowTree.Proofs.Meaning.Readers
import WorkflowTree.Proofs.Meaning.Workflow
import WorkflowTree.Proofs.Meaning.Lists
import WorkflowTree.Proofs.Meaning.Keys
import WorkflowTree.Proofs.Reordering.Node
import WorkflowTree.Proofs.Reordering.Same
import WorkflowTree.Proofs.Reordering.Alike
import WorkflowTree.Proofs.Reordering.Form
import WorkflowTree.Proofs.Reordering.Readers
import WorkflowTree.Proofs.Reordering.Workflow
import WorkflowTree.Proofs.Misfits.Site
import WorkflowTree.Proofs.Misfits.Finding
import WorkflowTree.Proofs.Misfits.Form
import WorkflowTree.Proofs.Misfits.Readers
import WorkflowTree.Proofs.Misfits.Workflow
import WorkflowTree.Proofs.Misfits.Step
import WorkflowTree.Proofs.Repeats.Scope
import WorkflowTree.Proofs.Repeats.Readers
import WorkflowTree.Proofs.Repeats.Section
import WorkflowTree.Proofs.Repeats.Distinct
import WorkflowTree.Proofs.Repeats.Permissions
import WorkflowTree.Proofs.Independence.Frame
import WorkflowTree.Proofs.Independence.Workflow
import WorkflowTree.Proofs.Relocation.Place
import WorkflowTree.Proofs.Relocation.Relocated
import WorkflowTree.Proofs.Relocation.Form
import WorkflowTree.Proofs.Relocation.Readers
import WorkflowTree.Proofs.Relocation.Workflow
import WorkflowTree.Proofs.Simulation.Transfer
import WorkflowTree.Proofs.Simulation.Similar
import WorkflowTree.Proofs.Simulation.Readers
import WorkflowTree.Proofs.Simulation.Workflow
import WorkflowTree.Proofs.Simulation.Replaced
import WorkflowTree.Proofs.Meaning.WellFormed
import WorkflowTree.Proofs.Insensitivity.Unread
import WorkflowTree.Proofs.Insensitivity.Webhooks
import WorkflowTree.Proofs.Insensitivity.ShortForms
import WorkflowTree.Proofs.Insensitivity.Quotes
import WorkflowTree.Proofs.Insensitivity.Triggers
import WorkflowTree.Proofs.Insensitivity.Spellings
import WorkflowTree.Proofs.Editing.Run
import WorkflowTree.Proofs.Editing.Step
import WorkflowTree.Proofs.Editing.Job
import WorkflowTree.Proofs.Editing.Workflow
import WorkflowTree.Proofs.Editing.Built
import WorkflowTree.Proofs.Editing.Order
import WorkflowTree.Proofs.Editing.KeyedPart
import WorkflowTree.Proofs.Editing.Uniqueness
import WorkflowTree.Proofs.Editing.Inputs
import WorkflowTree.Proofs.Files.Selection
import WorkflowTree.Proofs.Reporting.Check
import WorkflowTree.Proofs.Files.Spelling
import WorkflowTree.Proofs.Queries.Matrix
import WorkflowTree.Proofs.Queries.Permissions
import WorkflowTree.Proofs.Queries.Labels
import WorkflowTree.Proofs.Queries.JobOrder
