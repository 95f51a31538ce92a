import LuaSnippet.Program.Loading
import LuaSnippet.Inspect.Walk
import LuaSnippet.Dialect

/-!
# Programs

A program is a list of root files with everything they refer to and the default library, and the
global names that all of these declare. Its diagnostics are those of its loading, then what is wrong
with the form of each file, then what the inspection of each file without declarations finds.
-/

namespace LuaSnippet

open Script (Edition File)

namespace Program

/-- How a program is compiled. -/
structure Options where
  edition : Edition
  dialect : Dialect
  /-- Whether emitted files go without the line that says where they come from. -/
  noHeader : Bool
  /-- Whether the default library is left out. -/
  noLibrary : Bool
deriving DecidableEq, Repr

def libraryName : Edition → String
  | .es5 => "lib.d.ts"
  | .es2015 => "lib.es6.d.ts"

/-- The name under which a root file is loaded. -/
def rootName (directory root : String) : String :=
  if directory = "" then root else Path.resolve (Path.ofString directory) root

end Program

/-- A loaded program. -/
structure Program where
  options : Program.Options
  roots : List String
  files : List File
  globals : Globals.Table
  newLine : String
  diagnostics : List Diagnostic

namespace Program

variable {σ : Type}

/-- The names of the files that loading a program starts from. -/
def startNames (h : Host σ) (options : Options) (roots : List String) : List String :=
  roots.map (rootName h.directory) ++
    (if options.noLibrary then [] else [h.library options.edition])

/-- Loads a program. The host can supply files for at most `supply` keys. -/
def create (h : Host σ) (supply : Nat) (options : Options) (roots : List String) (w : σ) :
    Except Unreadable Program × σ :=
  match loadEach (load h options.edition (supply + 1) none) (startNames h options roots)
    .empty w with
  | (.error e, w) => (.error e, w)
  | (.ok l, w) =>
    (.ok ⟨options, roots, l.files, Globals.bind l.files, h.newLine, l.diagnostics⟩, w)

def file? (p : Program) (name : String) : Option File :=
  p.files.find? fun f => f.name = name

/-- The files of a program that are compiled. -/
def sources (p : Program) : List File :=
  p.files.filter fun f => !f.isDeclaration

/-- Everything that is wrong with a program before anything is emitted. -/
def allDiagnostics (p : Program) : List Diagnostic :=
  p.diagnostics ++ p.files.flatMap (·.diagnostics) ++
    p.sources.flatMap fun f => Inspect.diagnostics f p.globals

end Program

end LuaSnippet
