import Scaffold.CommandLine
import Scaffold.Config.Basic
import Scaffold.Config.Dotenv
import Scaffold.Config.Environment
import Scaffold.Config.Extraction
import Scaffold.Config.Layers
import Scaffold.Config.Literal
import Scaffold.Config.Value
import Scaffold.Declaration
import Scaffold.Disk
import Scaffold.Generator
import Scaffold.Log
import Scaffold.Main
import Scaffold.Merge
import Scaffold.Naming
import Scaffold.Outline
import Scaffold.Path
import Scaffold.Php.Grammar
import Scaffold.Php.Grammar.Declaration
import Scaffold.Php.Grammar.Expression
import Scaffold.Php.Grammar.Name
import Scaffold.Php.Grammar.Statement
import Scaffold.Php.Lexeme
import Scaffold.Php.Lexer
import Scaffold.Php.Parse
import Scaffold.Php.Pattern
import Scaffold.Php.Quotation
import Scaffold.Php.Token
import Scaffold.Plan
import Scaffold.Program
import Scaffold.Proofs.CommandLine.Options
import Scaffold.Proofs.Config.Layering
import Scaffold.Proofs.Config.Layers
import Scaffold.Proofs.Config.Merging
import Scaffold.Proofs.Config.Normal
import Scaffold.Proofs.Config.Settings
import Scaffold.Proofs.Config.Variables
import Scaffold.Proofs.Disk.Elsewhere
import Scaffold.Proofs.Disk.Ground
import Scaffold.Proofs.Disk.Lexical
import Scaffold.Proofs.Disk.Links
import Scaffold.Proofs.Disk.Listing
import Scaffold.Proofs.Disk.Obstacle
import Scaffold.Proofs.Disk.Saving
import Scaffold.Proofs.Disk.Sharing
import Scaffold.Proofs.Disk.Walk
import Scaffold.Proofs.Extraction.Methods
import Scaffold.Proofs.Extraction.Scoping
import Scaffold.Proofs.Extraction.Selection
import Scaffold.Proofs.Extraction.Sites
import Scaffold.Proofs.Merge.Counting
import Scaffold.Proofs.Merge.Declarations
import Scaffold.Proofs.Merge.Extraction
import Scaffold.Proofs.Merge.Growth
import Scaffold.Proofs.Merge.Increments
import Scaffold.Proofs.Merge.Layout
import Scaffold.Proofs.Merge.Likeness
import Scaffold.Proofs.Merge.LineEnds
import Scaffold.Proofs.Merge.Members
import Scaffold.Proofs.Merge.Splicing
import Scaffold.Proofs.Merge.Stub
import Scaffold.Proofs.Merge.Update
import Scaffold.Proofs.Naming.Conventions
import Scaffold.Proofs.Naming.NormalForm
import Scaffold.Proofs.Naming.TestName
import Scaffold.Proofs.Path.Comparing
import Scaffold.Proofs.Path.Steps
import Scaffold.Proofs.Php.Declared
import Scaffold.Proofs.Php.Forests
import Scaffold.Proofs.Php.Lexing
import Scaffold.Proofs.Php.Parsed
import Scaffold.Proofs.Php.Reading
import Scaffold.Proofs.Plan.Clashes
import Scaffold.Proofs.Plan.Difference
import Scaffold.Proofs.Plan.Names
import Scaffold.Proofs.Report.Alignment
import Scaffold.Proofs.Report.Widths
import Scaffold.Proofs.Run.Accounting
import Scaffold.Proofs.Run.DryRun
import Scaffold.Proofs.Run.Frame
import Scaffold.Proofs.Run.Interleaving
import Scaffold.Proofs.Run.Jobs
import Scaffold.Proofs.Run.Progress
import Scaffold.Proofs.Run.Turns
import Scaffold.Proofs.Run.Writes
import Scaffold.Proofs.Scan.Filters
import Scaffold.Proofs.Scan.Order
import Scaffold.Proofs.Scan.Selection
import Scaffold.Proofs.Source.LineEnds
import Scaffold.Proofs.Source.Offsets
import Scaffold.Proofs.Source.Splice
import Scaffold.Proofs.Target.Collisions
import Scaffold.Proofs.Target.Mirroring
import Scaffold.Proofs.Target.Places
import Scaffold.Proofs.Text.Blank
import Scaffold.Proofs.Text.Case
import Scaffold.Proofs.Text.Ends
import Scaffold.Proofs.Toml.Keys
import Scaffold.Proofs.Tree.Arrangement
import Scaffold.Proofs.Tree.Descent
import Scaffold.Proofs.Tree.Editing
import Scaffold.Proofs.Tree.Edits
import Scaffold.Proofs.Tree.Inheritance
import Scaffold.Proofs.Tree.Lines
import Scaffold.Proofs.Tree.Lowering
import Scaffold.Proofs.Tree.Piecing
import Scaffold.Proofs.Tree.Printing
import Scaffold.Proofs.Tree.Replacing
import Scaffold.Proofs.Tree.Reshaping
import Scaffold.Proofs.Tree.Shape
import Scaffold.Proofs.Tree.Tiling
import Scaffold.Proofs.Tree.Walks
import Scaffold.Proofs.Tree.Worklist
import Scaffold.Report.Rendering
import Scaffold.Report.Summary
import Scaffold.Report.Table
import Scaffold.Scan
import Scaffold.Source.Position
import Scaffold.Source.Span
import Scaffold.SourceFile
import Scaffold.SourceText
import Scaffold.Target
import Scaffold.Template
import Scaffold.Text.Alphanumeric
import Scaffold.Text.Blank
import Scaffold.Text.Case
import Scaffold.Text.CaseTable
import Scaffold.Text.Hidden
import Scaffold.Text.Quoted
import Scaffold.Toml.Document
import Scaffold.Toml.Parse
import Scaffold.Toml.Quoted
import Scaffold.Toml.Scalar
import Scaffold.Tree.Arena
import Scaffold.Tree.Concrete
import Scaffold.Tree.Lowering
import Scaffold.Tree.Printer
