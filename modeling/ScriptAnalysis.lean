import ScriptAnalysis.Analysis.Analyzer
import ScriptAnalysis.Analysis.Dependencies
import ScriptAnalysis.Analysis.Exports
import ScriptAnalysis.Analysis.Frontend
import ScriptAnalysis.Analysis.Response
import ScriptAnalysis.Analysis.Scripted
import ScriptAnalysis.Analysis.TypeDescriptor
import ScriptAnalysis.Ast
import ScriptAnalysis.Ast.Names
import ScriptAnalysis.Binding
import ScriptAnalysis.Checker
import ScriptAnalysis.Checking.Classes
import ScriptAnalysis.Checking.Expressions
import ScriptAnalysis.Checking.Functions
import ScriptAnalysis.Checking.State
import ScriptAnalysis.Checking.Statements
import ScriptAnalysis.Checking.TypeNodes
import ScriptAnalysis.Checking.Values
import ScriptAnalysis.CommandLine
import ScriptAnalysis.Config
import ScriptAnalysis.Config.Declarations
import ScriptAnalysis.Config.File
import ScriptAnalysis.Diagnostic
import ScriptAnalysis.Diagnostic.Problem
import ScriptAnalysis.Emission
import ScriptAnalysis.Erasure
import ScriptAnalysis.FileSystem
import ScriptAnalysis.FileSystem.NativePath
import ScriptAnalysis.Glob
import ScriptAnalysis.Host
import ScriptAnalysis.Host.Memory
import ScriptAnalysis.Json
import ScriptAnalysis.Json.Reader
import ScriptAnalysis.Json.Relaxed
import ScriptAnalysis.Main
import ScriptAnalysis.Numeral
import ScriptAnalysis.Numeral.Binary64
import ScriptAnalysis.Numeral.Shortest
import ScriptAnalysis.Order
import ScriptAnalysis.Parsing.Declarations
import ScriptAnalysis.Parsing.Expressions
import ScriptAnalysis.Parsing.Productions
import ScriptAnalysis.Parsing.State
import ScriptAnalysis.Parsing.Statements
import ScriptAnalysis.Parsing.Types
import ScriptAnalysis.Path
import ScriptAnalysis.Program
import ScriptAnalysis.Registry
import ScriptAnalysis.Server
import ScriptAnalysis.Server.LineBuffer
import ScriptAnalysis.Server.ResponseCache
import ScriptAnalysis.SourceFile
import ScriptAnalysis.Symbol
import ScriptAnalysis.Table
import ScriptAnalysis.Text
import ScriptAnalysis.Text.CharClass
import ScriptAnalysis.Text.LineMap
import ScriptAnalysis.Text.Span
import ScriptAnalysis.Text.Utf8
import ScriptAnalysis.Token
import ScriptAnalysis.Token.Lexer
import ScriptAnalysis.Types.Apparent
import ScriptAnalysis.Types.Assignable
import ScriptAnalysis.Types.Basic
import ScriptAnalysis.Types.Display
import ScriptAnalysis.Types.Members
import ScriptAnalysis.Types.Table
import ScriptAnalysis.Proofs.Host.Simulation
import ScriptAnalysis.Proofs.Program.Incremental
import ScriptAnalysis.Proofs.Path.Canonical
import ScriptAnalysis.Proofs.Registry.Versions
import ScriptAnalysis.Proofs.Server.Lines
import ScriptAnalysis.Proofs.Checking.Record
import ScriptAnalysis.Proofs.Checking.Reports
import ScriptAnalysis.Proofs.Checking.Order
import ScriptAnalysis.Proofs.Erasure.Modifiers
import ScriptAnalysis.Proofs.Analysis.Exports
import ScriptAnalysis.Proofs.Program.Walk
import ScriptAnalysis.Proofs.Program.Remembered
import ScriptAnalysis.Proofs.Registry.Steady
import ScriptAnalysis.Proofs.Registry.Accounted
import ScriptAnalysis.Proofs.Analysis.Frontends
import ScriptAnalysis.Proofs.Analysis.Repetition
import ScriptAnalysis.Proofs.Checking.Guards
import ScriptAnalysis.Proofs.Checking.Isolation
import ScriptAnalysis.Proofs.Checking.Nesting
import ScriptAnalysis.Proofs.Checking.Termination
import ScriptAnalysis.Proofs.Ast.Forest
import ScriptAnalysis.Proofs.Parsing.Builds
import ScriptAnalysis.Proofs.Parsing.Forest
import ScriptAnalysis.Proofs.Server.Calls
import ScriptAnalysis.Proofs.Server.Kept
import ScriptAnalysis.Proofs.Program.Closure
import ScriptAnalysis.Proofs.Server.Fatal
import ScriptAnalysis.Proofs.Program.Resolution
import ScriptAnalysis.Proofs.Types.Interning
import ScriptAnalysis.Proofs.Types.Unions
import ScriptAnalysis.Proofs.Token.Gap
import ScriptAnalysis.Proofs.Token.Lexeme
import ScriptAnalysis.Proofs.Token.Scan
import ScriptAnalysis.Proofs.Ast.Subtrees
import ScriptAnalysis.Proofs.Binding.Tables
import ScriptAnalysis.Proofs.Binding.Steps
import ScriptAnalysis.Proofs.Binding.WellFormed
import ScriptAnalysis.Proofs.Config.Bases
import ScriptAnalysis.Proofs.Json.Grammar
import ScriptAnalysis.Proofs.Json.Reading
import ScriptAnalysis.Proofs.Json.Decoration
import ScriptAnalysis.Proofs.Token.Blanking
import ScriptAnalysis.Proofs.Parsing.Alike
import ScriptAnalysis.Proofs.Parsing.Agreement
import ScriptAnalysis.Proofs.Parsing.Spans
import ScriptAnalysis.Proofs.Parsing.Clean
import ScriptAnalysis.Proofs.Parsing.Nested
import ScriptAnalysis.Proofs.Binding.Texts
import ScriptAnalysis.Proofs.Checking.Texts
import ScriptAnalysis.Proofs.Checking.Comments
import ScriptAnalysis.Proofs.Ast.Positions
import ScriptAnalysis.Proofs.Table
import ScriptAnalysis.Proofs.Types.Growth
import ScriptAnalysis.Proofs.Checking.Walk
import ScriptAnalysis.Proofs.Checking.Members
import ScriptAnalysis.Proofs.Checking.Classes
import ScriptAnalysis.Proofs.Checking.Building
import ScriptAnalysis.Proofs.Checking.Entering
import ScriptAnalysis.Proofs.Checking.ClassTypes
import ScriptAnalysis.Proofs.Checking.Overloads
import ScriptAnalysis.Proofs.Binding.Declared
import ScriptAnalysis.Proofs.Checking.Coverage
import ScriptAnalysis.Proofs.Types.Inheritance
import ScriptAnalysis.Proofs.Types.Assignability
import ScriptAnalysis.Proofs.Checking.Tables
import ScriptAnalysis.Proofs.Analysis.Dependencies
import ScriptAnalysis.Proofs.Analysis.Collecting
import ScriptAnalysis.Proofs.Binding.Merging
import ScriptAnalysis.Proofs.Binding.Clashes
import ScriptAnalysis.Proofs.Checking.Typed
import ScriptAnalysis.Proofs.Checking.Arity
import ScriptAnalysis.Proofs.Text.Lines
import ScriptAnalysis.Proofs.Erasure.Columns
import ScriptAnalysis.Proofs.Parsing.Steps
import ScriptAnalysis.Proofs.Parsing.Lasting
import ScriptAnalysis.Proofs.Parsing.Upheld
import ScriptAnalysis.Proofs.Parsing.Precedence
import ScriptAnalysis.Proofs.Parsing.ModuleSyntax
import ScriptAnalysis.Proofs.Parsing.Reading
import ScriptAnalysis.Proofs.Parsing.TypeTrees
import ScriptAnalysis.Proofs.Parsing.TypeRoundTrip
import ScriptAnalysis.Proofs.Parsing.Errors
import ScriptAnalysis.Proofs.Parsing.OperandChains
import ScriptAnalysis.Proofs.Parsing.Finishes
import ScriptAnalysis.Proofs.Parsing.Complete
import ScriptAnalysis.Proofs.Path.Routes
import ScriptAnalysis.Proofs.Text.Boundaries
import ScriptAnalysis.Proofs.Token.Found
import ScriptAnalysis.Proofs.Token.LineEnds
import ScriptAnalysis.Proofs.Token.Cooking
import ScriptAnalysis.Proofs.Text.Cuts
import ScriptAnalysis.Proofs.Diagnostic.Templates
import ScriptAnalysis.Proofs.Numeral.Canonical
import ScriptAnalysis.Proofs.Analysis.Descriptors
import ScriptAnalysis.Proofs.Types.Widening
import ScriptAnalysis.Proofs.Types.Closed
import ScriptAnalysis.Proofs.Checking.Closing
import ScriptAnalysis.Proofs.Checking.Yielding
import ScriptAnalysis.Proofs.Checking.Widening
import ScriptAnalysis.Proofs.Text.Covering
import ScriptAnalysis.Proofs.Parsing.Speculation
import ScriptAnalysis.Proofs.Parsing.Names
import ScriptAnalysis.Proofs.Analysis.Signatures
import ScriptAnalysis.Proofs.Types.Distinct
import ScriptAnalysis.Proofs.Types.Alike
import ScriptAnalysis.Proofs.Types.Linking
import ScriptAnalysis.Proofs.Types.Own
import ScriptAnalysis.Proofs.Checking.Twins
import ScriptAnalysis.Proofs.Checking.TwinExpressions
import ScriptAnalysis.Proofs.Checking.InStep
import ScriptAnalysis.Proofs.Checking.InStepDeclarations
import ScriptAnalysis.Proofs.Checking.Memory
import ScriptAnalysis.Proofs.Checking.Recall
import ScriptAnalysis.Proofs.Checking.Whole
import ScriptAnalysis.Proofs.Checking.Replay
import ScriptAnalysis.Proofs.Checking.Trials
import ScriptAnalysis.Proofs.Checking.OverloadChoice
