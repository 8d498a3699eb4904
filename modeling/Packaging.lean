import Packaging.Adaptation
import Packaging.Attribute
import Packaging.Bindings
import Packaging.CommandLine
import Packaging.CommandLine.Argument
import Packaging.CommandLine.Form
import Packaging.CommandLine.Help
import Packaging.CommandLine.Invocation
import Packaging.CommandLine.Misuse
import Packaging.CommandLine.Report
import Packaging.Context
import Packaging.Diagnostic
import Packaging.Failure
import Packaging.FileSystem
import Packaging.Files
import Packaging.Journal
import Packaging.Json
import Packaging.Json.Display
import Packaging.Json.Reader
import Packaging.Json.Writer
import Packaging.Location
import Packaging.Main
import Packaging.Number.Double
import Packaging.Number.Integer
import Packaging.Number.Shortest
import Packaging.Path
import Packaging.Policy
import Packaging.Policy.Document
import Packaging.Policy.File
import Packaging.Policy.Preset
import Packaging.Policy.Traced
import Packaging.Proofs.Adaptation
import Packaging.Proofs.Bindings
import Packaging.Proofs.CommandLine.Invocations
import Packaging.Proofs.CommandLine.Modes
import Packaging.Proofs.CommandLine.Reports
import Packaging.Proofs.CommandLine.Runs
import Packaging.Proofs.Contexts
import Packaging.Proofs.Json.Integers
import Packaging.Proofs.Json.Layouts
import Packaging.Proofs.Json.LongNumerals
import Packaging.Proofs.Json.Printable
import Packaging.Proofs.Json.RoundTrip
import Packaging.Proofs.Json.Sound
import Packaging.Proofs.Json.Strings
import Packaging.Proofs.Locations
import Packaging.Proofs.Outcomes
import Packaging.Proofs.Policy.Checks
import Packaging.Proofs.Policy.Documents
import Packaging.Proofs.Policy.Loading
import Packaging.Proofs.Policy.Presets
import Packaging.Proofs.Policy.Printing
import Packaging.Proofs.Policy.RoundTrip
import Packaging.Proofs.Policy.Schema
import Packaging.Proofs.Script.Acceptance
import Packaging.Proofs.Script.Assignments
import Packaging.Proofs.Script.Boundaries
import Packaging.Proofs.Script.Completeness
import Packaging.Proofs.Script.Derivation
import Packaging.Proofs.Script.Escapes
import Packaging.Proofs.Script.Expectations
import Packaging.Proofs.Script.FirstViolations
import Packaging.Proofs.Script.Gaps
import Packaging.Proofs.Script.Junctures
import Packaging.Proofs.Script.Layout
import Packaging.Proofs.Script.Lexing
import Packaging.Proofs.Script.LineEndings
import Packaging.Proofs.Script.MalformedStrings
import Packaging.Proofs.Script.Nodes
import Packaging.Proofs.Script.Occurrences
import Packaging.Proofs.Script.Positions
import Packaging.Proofs.Script.Relocation
import Packaging.Proofs.Script.Rewording
import Packaging.Proofs.Script.Seams
import Packaging.Proofs.Script.Soundness
import Packaging.Proofs.Script.Spellings
import Packaging.Proofs.Script.SyntaxErrors
import Packaging.Proofs.Script.Trees
import Packaging.Proofs.Script.Unambiguity
import Packaging.Proofs.Script.ViablePrefixes
import Packaging.Proofs.Script.Violations
import Packaging.Proofs.Session.Actions
import Packaging.Proofs.Session.Aliases
import Packaging.Proofs.Session.Arguments
import Packaging.Proofs.Session.Atomicity
import Packaging.Proofs.Session.Attributes
import Packaging.Proofs.Session.Constructors
import Packaging.Proofs.Session.Evaluations
import Packaging.Proofs.Session.Failures
import Packaging.Proofs.Session.Frames
import Packaging.Proofs.Session.Names
import Packaging.Proofs.Session.Origins
import Packaging.Proofs.Session.Presets
import Packaging.Proofs.Session.Reachable
import Packaging.Proofs.Session.Resources
import Packaging.Proofs.Session.Sequels
import Packaging.Proofs.Session.Snapshots
import Packaging.Proofs.Session.Sources
import Packaging.Proofs.Session.Statements
import Packaging.Proofs.Session.Writes
import Packaging.Proofs.Text.Contents
import Packaging.Proofs.Text.Numerals
import Packaging.Proofs.Text.Order
import Packaging.Proofs.Text.Places
import Packaging.Proofs.Text.Sequences
import Packaging.Resource
import Packaging.Script.Lexeme
import Packaging.Script.Literal
import Packaging.Script.Machine
import Packaging.Script.Phrase
import Packaging.Script.Source
import Packaging.Script.Tree
import Packaging.Session
import Packaging.Session.Action
import Packaging.Session.Arguments
import Packaging.Session.Constructor
import Packaging.Session.Evaluation
import Packaging.Session.Store
import Packaging.Text
import Packaging.Text.Blank
import Packaging.Text.DecimalDigit
import Packaging.Text.Line
import Packaging.Text.Printable
import Packaging.Text.Quoted
import Packaging.Text.Utf8
import Packaging.Value
import Packaging.Wrapper
