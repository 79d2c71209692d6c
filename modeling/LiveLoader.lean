import LiveLoader.Bootstrap
import LiveLoader.Classification
import LiveLoader.Compiler
import LiveLoader.Error
import LiveLoader.FileSystem.Basic
import LiveLoader.FileSystem.Edit
import LiveLoader.Filter
import LiveLoader.Instrument
import LiveLoader.Json.Reader
import LiveLoader.Json.Value
import LiveLoader.Layout.Declaration
import LiveLoader.Layout.Expression
import LiveLoader.Layout.Literal
import LiveLoader.Layout.Pattern
import LiveLoader.Layout.Program
import LiveLoader.Layout.Sheet
import LiveLoader.Layout.Statement
import LiveLoader.Log
import LiveLoader.Logged
import LiveLoader.Lowering.Build
import LiveLoader.Lowering.Constant
import LiveLoader.Lowering.Entity
import LiveLoader.Lowering.Enumeration
import LiveLoader.Lowering.Erasure
import LiveLoader.Lowering.Fresh
import LiveLoader.Lowering.Markup
import LiveLoader.Lowering.Names
import LiveLoader.Lowering.Namespace
import LiveLoader.Lowering.Pragma
import LiveLoader.Lowering.Program
import LiveLoader.Number.Binary
import LiveLoader.Number.Script
import LiveLoader.Number.Shortest
import LiveLoader.Options
import LiveLoader.Outline
import LiveLoader.Path.Basic
import LiveLoader.Path.Relative
import LiveLoader.Pipeline
import LiveLoader.PlainCompiler
import LiveLoader.Proofs.Bootstrap.Calls
import LiveLoader.Proofs.Bootstrap.Rewriting
import LiveLoader.Proofs.Bootstrap.Statements
import LiveLoader.Proofs.Build
import LiveLoader.Proofs.Classification
import LiveLoader.Proofs.FileSystem.Tree
import LiveLoader.Proofs.FileSystem.Walk
import LiveLoader.Proofs.Filter
import LiveLoader.Proofs.Forest
import LiveLoader.Proofs.Json.Grammar
import LiveLoader.Proofs.Json.Reading
import LiveLoader.Proofs.Json.Strings
import LiveLoader.Proofs.Options
import LiveLoader.Proofs.Outline
import LiveLoader.Proofs.Path.Climb
import LiveLoader.Proofs.Path.Direct
import LiveLoader.Proofs.Path.Extension
import LiveLoader.Proofs.Path.Normal
import LiveLoader.Proofs.Path.Relative
import LiveLoader.Proofs.Path.Stable
import LiveLoader.Proofs.Pipeline.Dispatch
import LiveLoader.Proofs.Pipeline.Loads
import LiveLoader.Proofs.Pipeline.Omission
import LiveLoader.Proofs.Pipeline.Reload
import LiveLoader.Proofs.Pipeline.Snippet
import LiveLoader.Proofs.PlainCompiler.Analysis
import LiveLoader.Proofs.PlainCompiler.Answers
import LiveLoader.Proofs.PlainCompiler.Contents
import LiveLoader.Proofs.PlainCompiler.Emission
import LiveLoader.Proofs.PlainCompiler.Repetition
import LiveLoader.Proofs.PlainCompiler.Sessions
import LiveLoader.Proofs.PlainCompiler.Tables
import LiveLoader.Proofs.Resource.Inlining
import LiveLoader.Proofs.Resource.Literals
import LiveLoader.Proofs.Resource.Places
import LiveLoader.Proofs.Resource.Results
import LiveLoader.Proofs.Resource.Splicing
import LiveLoader.Proofs.Resource.StyleNames
import LiveLoader.Proofs.Resource.Styles
import LiveLoader.Proofs.Routes.Imports
import LiveLoader.Proofs.Routes.Module
import LiveLoader.Proofs.Routes.Pattern
import LiveLoader.Proofs.Routes.Scan
import LiveLoader.Proofs.Routes.Sharing
import LiveLoader.Proofs.Routes.Specifier
import LiveLoader.Proofs.Routes.Table
import LiveLoader.Proofs.Session.Calls
import LiveLoader.Proofs.Session.Failure
import LiveLoader.Proofs.Session.Interleaving
import LiveLoader.Proofs.Session.Jobs
import LiveLoader.Proofs.Session.Rebuilds
import LiveLoader.Proofs.Session.Recovery
import LiveLoader.Proofs.Session.Roots
import LiveLoader.Proofs.Session.Texts
import LiveLoader.Proofs.Syntax.Node
import LiveLoader.Proofs.Syntax.Outline
import LiveLoader.Proofs.Syntax.Placement
import LiveLoader.Proofs.Syntax.Siblings
import LiveLoader.Proofs.Syntax.Span
import LiveLoader.Proofs.Text.Bytes
import LiveLoader.Proofs.Text.CaseFold
import LiveLoader.Proofs.Text.Expansion
import LiveLoader.Proofs.Text.Literal
import LiveLoader.Proofs.Text.Pieces
import LiveLoader.Proofs.Text.Quoted
import LiveLoader.Proofs.Text.Splice
import LiveLoader.Proofs.Transformers
import LiveLoader.Resource.Host
import LiveLoader.Resource.Inlining
import LiveLoader.Resource.Metadata
import LiveLoader.Routes.Module
import LiveLoader.Routes.Pattern
import LiveLoader.Routes.Scan
import LiveLoader.Routes.Table
import LiveLoader.Scripted
import LiveLoader.Session
import LiveLoader.Sha256
import LiveLoader.SourceFile
import LiveLoader.Syntax.Dialect
import LiveLoader.Syntax.Escape
import LiveLoader.Syntax.Grammar.Expressions
import LiveLoader.Syntax.Grammar.Functions
import LiveLoader.Syntax.Grammar.Markup
import LiveLoader.Syntax.Grammar.Modules
import LiveLoader.Syntax.Grammar.Parameters
import LiveLoader.Syntax.Grammar.Reader
import LiveLoader.Syntax.Grammar.Statements
import LiveLoader.Syntax.Grammar.Types
import LiveLoader.Syntax.Lexer
import LiveLoader.Syntax.Node
import LiveLoader.Syntax.Operator
import LiveLoader.Syntax.Outline
import LiveLoader.Syntax.Parser
import LiveLoader.Syntax.Token
import LiveLoader.Text.Blank
import LiveLoader.Text.CaseFold
import LiveLoader.Text.Expansion
import LiveLoader.Text.Identifier
import LiveLoader.Text.Pieces
import LiveLoader.Text.Quoted
import LiveLoader.Text.Shown
import LiveLoader.Text.Splice
import LiveLoader.Text.Upper
import LiveLoader.Transformers
import LiveLoader.Transpile
