import JavaSurvey.Analysis
import JavaSurvey.BootTimeline
import JavaSurvey.Cache
import JavaSurvey.CallGraph
import JavaSurvey.CallSite.Arguments
import JavaSurvey.CallSite.Parentheses
import JavaSurvey.CallSite.Scan
import JavaSurvey.CommandLine.Arguments
import JavaSurvey.CommandLine.Run
import JavaSurvey.CommandLine.Sample
import JavaSurvey.Declaration
import JavaSurvey.Document
import JavaSurvey.Export
import JavaSurvey.Failure
import JavaSurvey.Json
import JavaSurvey.Locks
import JavaSurvey.Log
import JavaSurvey.Main
import JavaSurvey.Navigation
import JavaSurvey.Order
import JavaSurvey.Outline.Classes
import JavaSurvey.Outline.Fields
import JavaSurvey.Outline.File
import JavaSurvey.Outline.Identifier
import JavaSurvey.Outline.Methods
import JavaSurvey.Outline.Modifiers
import JavaSurvey.Path
import JavaSurvey.Proofs.Outline
import JavaSurvey.Proofs.Syntax.ByteMap
import JavaSurvey.Proofs.Syntax.Reading
import JavaSurvey.Proofs.Syntax.Walk
import JavaSurvey.Proofs.Text.Lines
import JavaSurvey.Proofs.Text.Slices
import JavaSurvey.Report
import JavaSurvey.Scan
import JavaSurvey.Session
import JavaSurvey.Settings
import JavaSurvey.Syntax.ByteMap
import JavaSurvey.Syntax.Concrete
import JavaSurvey.Syntax.Draft
import JavaSurvey.Syntax.Loading
import JavaSurvey.Syntax.Reading
import JavaSurvey.Syntax.Tree
import JavaSurvey.Syntax.TreeCursor
import JavaSurvey.Syntax.Walk
import JavaSurvey.SystemService
import JavaSurvey.Text.Basic
import JavaSurvey.Text.Chars
import JavaSurvey.Text.LineIndex
import JavaSurvey.Text.Numeral
import JavaSurvey.Text.Quoted
import JavaSurvey.Text.Table.Digit
import JavaSurvey.Text.Table.Printable
import JavaSurvey.Text.Table.Upper
import JavaSurvey.Text.Table.Word
import JavaSurvey.Text.Upper
import JavaSurvey.Text.Utf8
import JavaSurvey.Workspace.Glob
import JavaSurvey.Workspace.Listing
import JavaSurvey.Workspace.Tree
import JavaSurvey.Proofs.CallSites
import JavaSurvey.Proofs.Analysis
import JavaSurvey.Proofs.Cache.History
import JavaSurvey.Proofs.Cache.Transparency
import JavaSurvey.Proofs.Cache.Edits
import JavaSurvey.Proofs.Scan
import JavaSurvey.Proofs.Text.Utf8
import JavaSurvey.Proofs.Syntax.Tokens
import JavaSurvey.Proofs.Syntax.Slots
import JavaSurvey.Proofs.Syntax.Spans
import JavaSurvey.Proofs.Calls.Overlap
import JavaSurvey.Proofs.Calls.Graph
import JavaSurvey.Proofs.Calls.Headers
import JavaSurvey.Proofs.Syntax.Nesting
import JavaSurvey.Proofs.Declarations
import JavaSurvey.Proofs.Calls.Parentheses
import JavaSurvey.Proofs.Cache.Files
import JavaSurvey.Proofs.Workspace.Listing
import JavaSurvey.Proofs.Rescan
import JavaSurvey.Proofs.Text.Blanks
import JavaSurvey.Proofs.Services
import JavaSurvey.Proofs.Calls.Arguments
import JavaSurvey.Proofs.Syntax.Faults
import JavaSurvey.Proofs.Calls.Matching
import JavaSurvey.Proofs.Calls.Literals
import JavaSurvey.Proofs.Locks.Braces
import JavaSurvey.Proofs.Locks.Blocks
import JavaSurvey.Proofs.Cache.Economy
import JavaSurvey.Proofs.Workspace.Brackets
import JavaSurvey.Proofs.Workspace.Patterns
import JavaSurvey.Proofs.Workspace.Traversal
import JavaSurvey.Proofs.MethodNames
import JavaSurvey.Proofs.Cursor
import JavaSurvey.Proofs.Locks.Hazards
import JavaSurvey.Proofs.Publishing
import JavaSurvey.Proofs.Navigation.Searches
import JavaSurvey.Proofs.Navigation.Quotes
import JavaSurvey.Proofs.Navigation.Stanzas
import JavaSurvey.Proofs.Json.Grammar
import JavaSurvey.Proofs.Json.Reading
import JavaSurvey.Proofs.Export
import JavaSurvey.Proofs.Syntax.Drafts
import JavaSurvey.Proofs.Syntax.Loop
import JavaSurvey.Proofs.Syntax.Conversion
