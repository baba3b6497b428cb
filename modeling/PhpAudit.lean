import PhpAudit.Code.Encoding
import PhpAudit.Code.Expression
import PhpAudit.Code.File
import PhpAudit.Code.ReceiverClass
import PhpAudit.Code.Reference
import PhpAudit.Code.Statement
import PhpAudit.Command.Basic
import PhpAudit.Command.Run
import PhpAudit.CommandLine.Invocation
import PhpAudit.CommandLine.Option
import PhpAudit.Config
import PhpAudit.Diagnostic
import PhpAudit.Error
import PhpAudit.Files.Change
import PhpAudit.Files.IgnoreRule
import PhpAudit.Files.Ignored
import PhpAudit.Files.RulePattern
import PhpAudit.Files.Search
import PhpAudit.Files.Tree
import PhpAudit.Fixture.Marking
import PhpAudit.Fixture.Verification
import PhpAudit.Glob
import PhpAudit.Hierarchy.AncestorInterfaces
import PhpAudit.Hierarchy.Registry
import PhpAudit.Inspection.DatabaseCalls
import PhpAudit.Inspection.File
import PhpAudit.Inspection.HandleCall
import PhpAudit.Inspection.InterfaceRedeclaration
import PhpAudit.Inspection.Source
import PhpAudit.Json.Reader
import PhpAudit.Json.Value
import PhpAudit.Json.Writer
import PhpAudit.Lowering.Declaration
import PhpAudit.Lowering.Expression
import PhpAudit.Lowering.File
import PhpAudit.Lowering.Reading
import PhpAudit.Lowering.Statement
import PhpAudit.Main
import PhpAudit.Markup.CharacterNames
import PhpAudit.Markup.Entity
import PhpAudit.Markup.Marker
import PhpAudit.Name
import PhpAudit.Name.Context
import PhpAudit.Path
import PhpAudit.Report
import PhpAudit.Report.Encoding
import PhpAudit.Report.Rendering
import PhpAudit.Report.Terminal
import PhpAudit.Span
import PhpAudit.Suppression.Context
import PhpAudit.Suppression.Directive
import PhpAudit.Text.Basic
import PhpAudit.Text.Bytes
import PhpAudit.Text.Mark
import PhpAudit.Text.Word
import PhpAudit.Toml.Quoted
import PhpAudit.Toml.Reader
import PhpAudit.Toml.Scalar
import PhpAudit.Toml.Table
import PhpAudit.Tree.Encoding
import PhpAudit.Tree.Import
import PhpAudit.Tree.Node
import PhpAudit.Tree.Reference
import PhpAudit.Proofs.Hierarchy.Distinct
import PhpAudit.Proofs.Hierarchy.ParentWalk
import PhpAudit.Proofs.Hierarchy.FirstAnnouncement
import PhpAudit.Proofs.Hierarchy.InterfaceWalk
import PhpAudit.Proofs.Hierarchy.Registration
import PhpAudit.Proofs.Hierarchy.Ancestors
import PhpAudit.Proofs.Code.Position
import PhpAudit.Proofs.Code.Reads
import PhpAudit.Proofs.Inspection.DatabaseCalls
import PhpAudit.Proofs.Markup.Marker
import PhpAudit.Proofs.Markup.Token
import PhpAudit.Proofs.Fixture.Nesting
import PhpAudit.Proofs.Fixture.RoundTrip
import PhpAudit.Proofs.Tree.Placement
import PhpAudit.Proofs.Lowering.Invariant
import PhpAudit.Proofs.Code.Everywhere
import PhpAudit.Proofs.Lowering.Origin
import PhpAudit.Proofs.Inspection.Findings
import PhpAudit.Proofs.Fixture.Verification
import PhpAudit.Proofs.Inspection.InterfaceRedeclaration
import PhpAudit.Proofs.Lowering.Variables
import PhpAudit.Proofs.Lowering.Visibility
import PhpAudit.Proofs.Lowering.Frames
import PhpAudit.Proofs.Lowering.Nonlocals
import PhpAudit.Proofs.Inspection.Outliving
import PhpAudit.Proofs.Hierarchy.KeptAnswers
import PhpAudit.Proofs.Report.SourceOrder
import PhpAudit.Proofs.Hierarchy.DeclarationOrder
import PhpAudit.Proofs.Inspection.Independence
import PhpAudit.Proofs.Inspection.FileOrder
import PhpAudit.Proofs.Lowering.Meaning
import PhpAudit.Proofs.Code.ReceiverClass
import PhpAudit.Proofs.Lowering.Code
import PhpAudit.Proofs.Lowering.Receivers
import PhpAudit.Proofs.Hierarchy.Respelling
import PhpAudit.Proofs.Inspection.Respelling
import PhpAudit.Proofs.Code.Renaming
import PhpAudit.Proofs.Inspection.Renaming
import PhpAudit.Proofs.Inspection.ExactSpans
import PhpAudit.Proofs.Lowering.Composition
import PhpAudit.Proofs.Lowering.Sections
import PhpAudit.Proofs.Tree.Comments
import PhpAudit.Proofs.Lowering.Comments
import PhpAudit.Proofs.Inspection.LaterCode
import PhpAudit.Proofs.Code.Annotation
import PhpAudit.Proofs.Code.RoundTrip
import PhpAudit.Proofs.Tree.Reference
import PhpAudit.Proofs.Lowering.RoundTrip
import PhpAudit.Proofs.Inspection.OnlyUse
import PhpAudit.Proofs.Inspection.EnclosedBody
import PhpAudit.Proofs.Lowering.Steps
import PhpAudit.Proofs.Lowering.OwnDeclarations
import PhpAudit.Proofs.Lowering.NestedFunctions
import PhpAudit.Proofs.Lowering.BlockOrder
import PhpAudit.Proofs.Markup.Division
import PhpAudit.Proofs.Fixture.Marking
import PhpAudit.Proofs.Fixture.Enclosure
import PhpAudit.Proofs.Fixture.Pairing
import PhpAudit.Proofs.Suppression.Directive
import PhpAudit.Proofs.Suppression.Blocks
import PhpAudit.Proofs.Suppression.Locality
import PhpAudit.Proofs.Text.Rows
import PhpAudit.Proofs.Hierarchy.Subclassing
import PhpAudit.Proofs.Suppression.OwnLine
import PhpAudit.Proofs.Suppression.Written
import PhpAudit.Proofs.Code.ReadCount
import PhpAudit.Proofs.Text.Folding
import PhpAudit.Proofs.Name.Resolution
import PhpAudit.Proofs.Name.Imports
import PhpAudit.Proofs.Name.Spelling
import PhpAudit.Proofs.Hierarchy.InsertionHistory
