import Extension.Clause.Evaluation
import Extension.Clause.Expr
import Extension.Clause.Grammar
import Extension.Clause.Lexeme
import Extension.Clause.Parser
import Extension.CommandLine.Arguments
import Extension.CommandLine.Members
import Extension.CommandLine.Members.Family
import Extension.CommandLine.Options
import Extension.CommandLine.Problem
import Extension.CommandLine.Program
import Extension.CommandLine.Run
import Extension.CommandLine.Target
import Extension.CommandLine.Thing
import Extension.Decision.Clauses
import Extension.Decision.Dot
import Extension.Decision.Exploration
import Extension.Decision.Fault
import Extension.Decision.Graph
import Extension.Decision.Pass
import Extension.Decision.Repetition
import Extension.Decision.Report
import Extension.Decision.Shared
import Extension.Decision.Test
import Extension.Decision.Tree
import Extension.Decision.Walk
import Extension.Document.Basic
import Extension.Document.Order
import Extension.Entries
import Extension.Folder
import Extension.Host
import Extension.Host.Recording
import Extension.Json.Basic
import Extension.Json.Reader
import Extension.Json.Text
import Extension.Manifest.Codec
import Extension.Manifest.Files
import Extension.Manifest.Merge
import Extension.Manifest.Package
import Extension.Manifest.Text
import Extension.Notice
import Extension.Number.Arithmetic
import Extension.Number.Binary64
import Extension.Number.Numeric
import Extension.Number.Reading
import Extension.Number.Shortest
import Extension.Registry.Basic
import Extension.Registry.Explorer
import Extension.Registry.Menu
import Extension.Registry.Step
import Extension.Rule.Basic
import Extension.Rule.Expression
import Extension.Rule.Session
import Extension.Settings
import Extension.Text.Blank
import Extension.Text.Digit
import Extension.Text.LowerCase
import Extension.Text.Printable
import Extension.Text.Quoted
import Extension.Text.UpperCase
import Extension.Text.Wide
import Extension.Value.Basic
import Extension.Value.Text
import Extension.Yaml.Character
import Extension.Yaml.Content
import Extension.Yaml.Fault
import Extension.Yaml.Layout
import Extension.Yaml.Node.Basic
import Extension.Yaml.Node.Merge
import Extension.Yaml.Node.Structure
import Extension.Yaml.Reader
import Extension.Yaml.Style
import Extension.Yaml.Tag
import Extension.Yaml.Timestamp
import Extension.Yaml.Token.Basic
import Extension.Yaml.Token.Mark
import Extension.Yaml.Token.Scalar
import Extension.Yaml.Token.Scanner
import Extension.Yaml.Writer
import Extension.Proofs.Decision.Ends
import Extension.Proofs.Decision.Assignment
import Extension.Proofs.Decision.Behaviour
import Extension.Proofs.Decision.Walk
import Extension.Proofs.Decision.Pass
import Extension.Proofs.Decision.Exploration
import Extension.Proofs.Decision.Exhaustion
import Extension.Proofs.Decision.Unfolding
import Extension.Proofs.Rule.Exploration
import Extension.Proofs.Clause.Evaluation
import Extension.Proofs.Clause.Reading
import Extension.Proofs.Decision.Joining
import Extension.Proofs.Decision.Clauses
import Extension.Proofs.Decision.Report
import Extension.Proofs.Rule.Compilation
import Extension.Proofs.Clause.Cut
import Extension.Proofs.Clause.Operand
import Extension.Proofs.Clause.Parsing
import Extension.Proofs.Rule.Spelling
import Extension.Proofs.Decision.Marks
import Extension.Proofs.Decision.Schedule
import Extension.Proofs.Decision.Interleaving
import Extension.Proofs.Decision.Arena
import Extension.Proofs.Decision.Places
import Extension.Proofs.Decision.Sharing
import Extension.Proofs.Registry.Operation
import Extension.Proofs.Registry.Registration
import Extension.Proofs.Value.Same
import Extension.Proofs.Registry.ContextKeys
import Extension.Proofs.Registry.Handles
import Extension.Proofs.Decision.Underway
import Extension.Proofs.Session.Recovery
import Extension.Proofs.Rule.Contradiction
import Extension.Proofs.Manifest.Fragment
import Extension.Proofs.Manifest.Overlay
import Extension.Proofs.Manifest.Regeneration
import Extension.Proofs.Registry.Assembly
import Extension.Proofs.Registry.Declarations
import Extension.Proofs.Session.Transparency
import Extension.Proofs.Clause.Machine
import Extension.Proofs.Decision.Readback
import Extension.Proofs.Decision.Rows
import Extension.Proofs.Json.Quoting
import Extension.Proofs.Json.Reading
import Extension.Proofs.Manifest.Roundtrip
import Extension.Proofs.Manifest.Texts
import Extension.Proofs.Rule.Recognition
import Extension.Proofs.Registry.Grouping
import Extension.Proofs.Entries
import Extension.Proofs.Manifest.Sections
import Extension.Proofs.Manifest.Preservation
import Extension.Proofs.Manifest.Composition
import Extension.Proofs.Manifest.Update
import Extension.Proofs.Session.Execution
import Extension.Proofs.Session.Tracking
import Extension.Proofs.Session.Termination
import Extension.Proofs.Session.Capacity
import Extension.Proofs.Decision.Standing
import Extension.Proofs.Decision.Inventory
import Extension.Proofs.Decision.Warnings
import Extension.Proofs.Session.Faults
import Extension.Proofs.Decision.Consistency
import Extension.Proofs.Session.Analysis
import Extension.Proofs.Decision.Worklist
import Extension.Proofs.Session.Worklist
import Extension.Proofs.Decision.Traversal
import Extension.Proofs.Decision.LevelOrder
import Extension.Proofs.Decision.Growth
import Extension.Proofs.Decision.Numbering
import Extension.Proofs.Decision.Statements
import Extension.Proofs.Decision.Drawing
import Extension.Proofs.Decision.Texts
import Extension.Proofs.Decision.Diagram
