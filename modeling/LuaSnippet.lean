import LuaSnippet.Bundled.Cases
import LuaSnippet.Bundled.Core
import LuaSnippet.Bundled.Files
import LuaSnippet.Bundled.Library
import LuaSnippet.Bundled.Special
import LuaSnippet.Case.Basic
import LuaSnippet.Case.Batch
import LuaSnippet.Case.File
import LuaSnippet.Case.Folder
import LuaSnippet.Case.Verdict
import LuaSnippet.Diagnostic
import LuaSnippet.Dialect
import LuaSnippet.Folder
import LuaSnippet.Globals.Overload
import LuaSnippet.Globals.Table
import LuaSnippet.Group
import LuaSnippet.Inspect.Finding
import LuaSnippet.Inspect.Scope
import LuaSnippet.Inspect.Walk
import LuaSnippet.Lowering.Lower
import LuaSnippet.Lowering.Operator
import LuaSnippet.Lowering.Unsupported
import LuaSnippet.Lua.Name
import LuaSnippet.Lua.Print
import LuaSnippet.Lua.Quoted
import LuaSnippet.Lua.Tree
import LuaSnippet.Path
import LuaSnippet.Peg.Attempts
import LuaSnippet.Peg.Cursor
import LuaSnippet.Peg.Grammar
import LuaSnippet.Peg.Match
import LuaSnippet.Program.Basic
import LuaSnippet.Program.Emission
import LuaSnippet.Program.Host
import LuaSnippet.Program.Loading
import LuaSnippet.Report.Basic
import LuaSnippet.Report.Difference
import LuaSnippet.Report.Paint
import LuaSnippet.Script.Blank
import LuaSnippet.Script.Chain
import LuaSnippet.Script.File
import LuaSnippet.Script.Operator
import LuaSnippet.Script.Piece
import LuaSnippet.Script.Quoted
import LuaSnippet.Script.Reading
import LuaSnippet.Script.Reference
import LuaSnippet.Script.Rule
import LuaSnippet.Script.Rule.Body
import LuaSnippet.Script.Tree
import LuaSnippet.Session.Basic
import LuaSnippet.Session.Declarations
import LuaSnippet.Session.Disk
import LuaSnippet.Session.Failure
import LuaSnippet.Session.Step
import LuaSnippet.Session.Store
import LuaSnippet.Session.Supply
import LuaSnippet.Settings
import LuaSnippet.Text.Blank
import LuaSnippet.Text.Letter.Lower
import LuaSnippet.Text.Letter.Table
import LuaSnippet.Text.Lines
import LuaSnippet.Text.Numeral
import LuaSnippet.Text.Position
import LuaSnippet.Text.Quoted
import LuaSnippet.Text.Quoted.Table
import LuaSnippet.Text.Ranges
import LuaSnippet.Text.Within
import LuaSnippet.Yaml.Block
import LuaSnippet.Yaml.Directive
import LuaSnippet.Yaml.Gap
import LuaSnippet.Yaml.Mark
import LuaSnippet.Yaml.Node
import LuaSnippet.Yaml.Plain
import LuaSnippet.Yaml.Quoted
import LuaSnippet.Yaml.Record
import LuaSnippet.Yaml.Tag
import LuaSnippet.Yaml.Token
import LuaSnippet.Proofs.Grouping
import LuaSnippet.Proofs.Script.Made
import LuaSnippet.Proofs.Script.Precedence
import LuaSnippet.Proofs.Program.Simulation
import LuaSnippet.Proofs.Session.Asking
import LuaSnippet.Proofs.Session.FirstRead
import LuaSnippet.Proofs.Session.Extent
import LuaSnippet.Proofs.Program.Depth
import LuaSnippet.Proofs.Program.Unlimited
import LuaSnippet.Proofs.Program.Closure
import LuaSnippet.Proofs.Program.Order
import LuaSnippet.Proofs.Session.Transparency
import LuaSnippet.Proofs.Lua.Token
import LuaSnippet.Proofs.Lua.Group
import LuaSnippet.Proofs.Lua.Operators
import LuaSnippet.Proofs.Lua.Printed
import LuaSnippet.Proofs.Lua.Spelling
import LuaSnippet.Proofs.Lua.Phrase
import LuaSnippet.Proofs.Lua.Strings
import LuaSnippet.Proofs.Lua.Composed
import LuaSnippet.Proofs.Lua.Balance
import LuaSnippet.Proofs.Lua.Reading
import LuaSnippet.Proofs.Peg.Derivation
import LuaSnippet.Proofs.Script.WellFormed
import LuaSnippet.Proofs.Script.Soundness
import LuaSnippet.Proofs.Script.Site
import LuaSnippet.Proofs.Lowering.Printable
import LuaSnippet.Proofs.Lowering.Operators
import LuaSnippet.Proofs.Globals.Overload
import LuaSnippet.Proofs.Inspect.Names
import LuaSnippet.Proofs.Lua.Locals
import LuaSnippet.Proofs.Lowering.Names
import LuaSnippet.Proofs.Lowering.Resolution
import LuaSnippet.Proofs.Session.Assembly
import LuaSnippet.Proofs.Session.Snippet
import LuaSnippet.Proofs.Globals.Declared
import LuaSnippet.Proofs.Lowering.Lacking
import LuaSnippet.Proofs.Session.Soundness
import LuaSnippet.Proofs.Lua.Values
import LuaSnippet.Proofs.Lowering.Delivery
import LuaSnippet.Proofs.Lowering.Lists
import LuaSnippet.Proofs.Lua.Needs
import LuaSnippet.Proofs.Lowering.Capture
import LuaSnippet.Proofs.Lua.Grammar
import LuaSnippet.Proofs.Lua.Grammatical
import LuaSnippet.Proofs.Lua.Trimmed
import LuaSnippet.Proofs.Lowering.Grammatical
import LuaSnippet.Proofs.Session.Chunk
import LuaSnippet.Proofs.Lua.Scan
import LuaSnippet.Proofs.Lua.Boundary
import LuaSnippet.Proofs.Lowering.Boundary
import LuaSnippet.Proofs.Text.Boundary
import LuaSnippet.Proofs.Peg.Progress
import LuaSnippet.Proofs.Peg.Termination
import LuaSnippet.Proofs.Peg.Shape
import LuaSnippet.Proofs.Script.Termination
import LuaSnippet.Proofs.Script.Shape
import LuaSnippet.Proofs.Script.Total
import LuaSnippet.Proofs.Script.Placed
import LuaSnippet.Proofs.Program.Offsets
import LuaSnippet.Proofs.Program.Total
import LuaSnippet.Proofs.Resolving
import LuaSnippet.Proofs.Row
import LuaSnippet.Proofs.Peg.Order
import LuaSnippet.Proofs.Script.Layout
import LuaSnippet.Proofs.Script.Nesting
import LuaSnippet.Proofs.Script.Faithful
import LuaSnippet.Proofs.Globals.Merged
import LuaSnippet.Proofs.Globals.Mentioned
import LuaSnippet.Proofs.Inspect.Mentioned
import LuaSnippet.Proofs.Lowering.Mentioned
import LuaSnippet.Proofs.Session.Mentioned
import LuaSnippet.Proofs.Case.Batch
import LuaSnippet.Proofs.Lua.Held
import LuaSnippet.Proofs.Script.Role
import LuaSnippet.Proofs.Lowering.Collected
import LuaSnippet.Proofs.Script.Occurrence
import LuaSnippet.Proofs.Program.Reported
import LuaSnippet.Proofs.Program.Dialects
import LuaSnippet.Proofs.Lowering.Renamed
import LuaSnippet.Proofs.Lua.Literal
import LuaSnippet.Proofs.Lowering.Literals
import LuaSnippet.Proofs.Lua.Outside
import LuaSnippet.Proofs.Lua.Words
import LuaSnippet.Proofs.Lowering.Contained
import LuaSnippet.Proofs.Peg.Answer
import LuaSnippet.Proofs.Script.Throughout
import LuaSnippet.Proofs.Script.Else
import LuaSnippet.Proofs.Lua.Branches
import LuaSnippet.Proofs.Lowering.Conditional
import LuaSnippet.Proofs.Globals.Selected
import LuaSnippet.Proofs.Globals.ByName
import LuaSnippet.Proofs.Globals.Union
import LuaSnippet.Proofs.Script.Segment
import LuaSnippet.Proofs.Script.Alike
import LuaSnippet.Proofs.Script.Abreast
import LuaSnippet.Proofs.Script.Cut
import LuaSnippet.Proofs.Globals.Comments
import LuaSnippet.Proofs.Inspect.Redeclared
import LuaSnippet.Proofs.Script.Quoted
import LuaSnippet.Proofs.Text.Within
import LuaSnippet.Proofs.Text.Lines
import LuaSnippet.Proofs.Case.Verdict
import LuaSnippet.Proofs.Report.Rebuilt
import LuaSnippet.Proofs.Report.Shown
import LuaSnippet.Proofs.Peg.Calls
import LuaSnippet.Proofs.Peg.Limit
import LuaSnippet.Proofs.Script.Blanks
import LuaSnippet.Proofs.Script.Limit
import LuaSnippet.Proofs.Text.Position
import LuaSnippet.Proofs.Lowering.Context
