import Decaf.Analysis
import Decaf.CommandLine
import Decaf.Declaration
import Decaf.Diagnostic
import Decaf.Dict
import Decaf.Expr
import Decaf.Folder
import Decaf.Generator
import Decaf.Hierarchy
import Decaf.Layout
import Decaf.Llvm.Module
import Decaf.Llvm.Name
import Decaf.Lowering
import Decaf.Main
import Decaf.Position
import Decaf.Program.Basic
import Decaf.Program.Lookup
import Decaf.Program.Validity
import Decaf.Proofs.Analysis.Independence
import Decaf.Proofs.Analysis.Reports
import Decaf.Proofs.Dict
import Decaf.Proofs.Generation.Dispatch
import Decaf.Proofs.Generation.Failures
import Decaf.Proofs.Generation.Functions
import Decaf.Proofs.Generation.Names
import Decaf.Proofs.Generation.Order
import Decaf.Proofs.Generation.Representation
import Decaf.Proofs.Generation.Structs
import Decaf.Proofs.Generation.Symbols
import Decaf.Proofs.Generation.Tables
import Decaf.Proofs.Generation.Void
import Decaf.Proofs.Hierarchy
import Decaf.Proofs.Hierarchy.Ancestors
import Decaf.Proofs.Hierarchy.Cycles
import Decaf.Proofs.Layout.Clashes
import Decaf.Proofs.Layout.Completion
import Decaf.Proofs.Layout.Fields
import Decaf.Proofs.Layout.Slots
import Decaf.Proofs.Program.Atomicity
import Decaf.Proofs.Program.Declarations
import Decaf.Proofs.Program.Errors
import Decaf.Proofs.Program.Extension
import Decaf.Proofs.Program.Lookup
import Decaf.Proofs.Program.Order
import Decaf.Proofs.Program.Overriding
import Decaf.Proofs.Program.Validity
import Decaf.Proofs.Run
import Decaf.Proofs.Scanning.Boundaries
import Decaf.Proofs.Scanning.Gaps
import Decaf.Proofs.Scanning.LineBreaks
import Decaf.Proofs.Scanning.LongestMatch
import Decaf.Proofs.Scanning.Numbers
import Decaf.Proofs.Scanning.Progress
import Decaf.Proofs.Scanning.Rescanning
import Decaf.Proofs.Scanning.Spans
import Decaf.Proofs.Scanning.Tokens
import Decaf.Proofs.Scopes
import Decaf.Proofs.Text.Utf8
import Decaf.Proofs.Typing.Acceptance
import Decaf.Proofs.Typing.ArrayTypes
import Decaf.Proofs.Typing.Exactness
import Decaf.Proofs.Typing.Extension
import Decaf.Proofs.Typing.Failures
import Decaf.Proofs.Typing.Fairness
import Decaf.Proofs.Typing.Frame
import Decaf.Proofs.Typing.Interfaces
import Decaf.Proofs.Typing.Members
import Decaf.Proofs.Typing.Memory
import Decaf.Proofs.Typing.Sentinel
import Decaf.Proofs.Typing.Settling
import Decaf.Proofs.Typing.Sharing
import Decaf.Proofs.Typing.Steps
import Decaf.Proofs.Typing.Subtyping
import Decaf.Proofs.Typing.System
import Decaf.Proofs.Typing.Verdict
import Decaf.Proofs.Typing.WellFormed
import Decaf.Ranked
import Decaf.Scope
import Decaf.Source
import Decaf.Text.Category
import Decaf.Text.Quoted
import Decaf.Text.Utf8
import Decaf.Token
import Decaf.Token.Lexeme
import Decaf.Token.Listing
import Decaf.Ty
import Decaf.TypeRef
import Decaf.Typing.Check
import Decaf.Typing.Event
import Decaf.Typing.Flaw
import Decaf.Typing.Rule
