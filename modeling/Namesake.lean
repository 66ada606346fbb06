import Namesake.Alias.Basic
import Namesake.Alias.Parser
import Namesake.Cli.Command
import Namesake.Cli.Flag
import Namesake.Cli.Run
import Namesake.Constraint
import Namesake.Decl.Basic
import Namesake.Decl.Kind
import Namesake.Diagnostic
import Namesake.Directive
import Namesake.DocText.Basic
import Namesake.DocText.Printer
import Namesake.Expand
import Namesake.FileTree
import Namesake.Generate.Expansion
import Namesake.Generate.Render
import Namesake.Generate.Run
import Namesake.Imports.Arrange
import Namesake.Imports.Basic
import Namesake.Imports.Prune
import Namesake.Imports.References
import Namesake.Imports.Sort
import Namesake.Layout.BlockComment
import Namesake.Layout.BuildLines
import Namesake.Layout.Columns
import Namesake.Layout.Comments
import Namesake.Layout.Declarations
import Namesake.Layout.Expressions
import Namesake.Layout.File
import Namesake.Layout.Format
import Namesake.Layout.State
import Namesake.Layout.Statements
import Namesake.Lint
import Namesake.Log
import Namesake.Log.Format
import Namesake.Main
import Namesake.Marker
import Namesake.Packages.Load
import Namesake.Packages.Select
import Namesake.Path
import Namesake.Position
import Namesake.Proofs.Arguments.Acceptance
import Namesake.Proofs.Arguments.Exactness
import Namesake.Proofs.Arguments.FirstError
import Namesake.Proofs.Arguments.Grammar
import Namesake.Proofs.Arguments.Layout
import Namesake.Proofs.Arguments.Literals
import Namesake.Proofs.Arguments.Placement
import Namesake.Proofs.Arguments.Printing
import Namesake.Proofs.Decl.Kinds
import Namesake.Proofs.Decl.Renaming
import Namesake.Proofs.Diagnostics
import Namesake.Proofs.Directive.Depth
import Namesake.Proofs.Directive.Interference
import Namesake.Proofs.Directive.Isolation
import Namesake.Proofs.Directive.Placement
import Namesake.Proofs.Directive.Residue
import Namesake.Proofs.Directive.Search
import Namesake.Proofs.Directive.Stretches
import Namesake.Proofs.Directive.Strip
import Namesake.Proofs.Directive.Unplaced
import Namesake.Proofs.Expand.Acceptance
import Namesake.Proofs.Expand.Clones
import Namesake.Proofs.Expand.DocComments
import Namesake.Proofs.Expand.MarkerLines
import Namesake.Proofs.Expand.Markers
import Namesake.Proofs.Expand.Repetition
import Namesake.Proofs.Expand.Retrigger
import Namesake.Proofs.FileTree
import Namesake.Proofs.Generate.Accounting
import Namesake.Proofs.Generate.Companions
import Namesake.Proofs.Generate.DocComments
import Namesake.Proofs.Generate.Floating
import Namesake.Proofs.Generate.Headers
import Namesake.Proofs.Generate.Independence
import Namesake.Proofs.Generate.Modes
import Namesake.Proofs.Generate.Naming
import Namesake.Proofs.Generate.Rendering
import Namesake.Proofs.Generate.Warnings
import Namesake.Proofs.Lint
import Namesake.Proofs.Path
import Namesake.Proofs.Scanner.Comments
import Namesake.Proofs.Scanner.Cuts
import Namesake.Proofs.Scanner.Extension
import Namesake.Proofs.Scanner.Extent
import Namesake.Proofs.Scanner.Faults
import Namesake.Proofs.Scanner.Lexemes
import Namesake.Proofs.Scanner.Placement
import Namesake.Proofs.Scanner.Stream
import Namesake.Proofs.Scanner.StringLiteral
import Namesake.Proofs.Scanner.Words
import Namesake.Proofs.Settings.Identifier
import Namesake.Proofs.Settings.Suffix
import Namesake.Proofs.Source.Adjoining
import Namesake.Proofs.Source.Comments
import Namesake.Proofs.Source.Decorations
import Namesake.Proofs.Source.Docs
import Namesake.Proofs.Source.Lines
import Namesake.Proofs.Source.Positions
import Namesake.Proofs.Source.Trails
import Namesake.Proofs.Spelling.Distance
import Namesake.Proofs.Spelling.Suggestion
import Namesake.Proofs.Text.Bytes
import Namesake.Proofs.Text.Quoted
import Namesake.Proofs.Text.Utf8
import Namesake.Proofs.Version
import Namesake.Proofs.Workspace.Initializing
import Namesake.Proofs.Workspace.Prediction
import Namesake.Proofs.Workspace.Retention
import Namesake.Proofs.Workspace.Skipping
import Namesake.Proofs.Workspace.Sources
import Namesake.Proofs.Workspace.Tasks
import Namesake.Proofs.Workspace.Writing
import Namesake.Release
import Namesake.Scanner.Basic
import Namesake.Scanner.Comment
import Namesake.Scanner.Cursor
import Namesake.Scanner.Fault
import Namesake.Scanner.Literal
import Namesake.Scanner.Number
import Namesake.Settings.Basic
import Namesake.Settings.Text
import Namesake.Source.File
import Namesake.Source.Gap
import Namesake.Source.Lines
import Namesake.Source.Parser.Expressions
import Namesake.Source.Parser.File
import Namesake.Source.Parser.State
import Namesake.Source.Parser.Statements
import Namesake.Source.Parser.Types
import Namesake.Source.Tree
import Namesake.Spelling
import Namesake.Text.Blank
import Namesake.Text.Bytes
import Namesake.Text.Letter
import Namesake.Text.LowerCase
import Namesake.Text.Printable
import Namesake.Text.Quoted
import Namesake.Text.Utf8
import Namesake.Token
import Namesake.Version
import Namesake.Workspace.Basic
import Namesake.Workspace.Dump
import Namesake.Workspace.Run
import Namesake.Yaml.Base64
import Namesake.Yaml.Cursor
import Namesake.Yaml.Decode
import Namesake.Yaml.Error
import Namesake.Yaml.Input
import Namesake.Yaml.Node
import Namesake.Yaml.Parser
import Namesake.Yaml.Printer
import Namesake.Yaml.Property
import Namesake.Yaml.Resolve
import Namesake.Yaml.Scalar
import Namesake.Yaml.Scanner
import Namesake.Yaml.Token
