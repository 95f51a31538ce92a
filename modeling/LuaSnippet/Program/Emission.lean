import LuaSnippet.Program.Basic
import LuaSnippet.Lowering.Lower
import LuaSnippet.Lowering.Unsupported
import LuaSnippet.Lua.Print

/-!
# Emission

Every source file of a program gives one artifact of the same name, in the order of the files. What
the dialect lacks is reported file by file beside the artifacts, which are made all the same, so
that one emission shows every problem.
-/

namespace LuaSnippet

open Script (File)

/-- A Lua text, under the name of the file that it was made from. -/
structure Artifact where
  name : String
  lua : String
deriving DecidableEq, Repr

/-- What a program comes to. -/
structure Emission where
  artifacts : List Artifact
  diagnostics : List Diagnostic
deriving DecidableEq, Repr

namespace Program

/-- The line that says where an artifact comes from. -/
def header : String := "--[[ Generated with luatypes-harness ]]"

/-- What the files of a program are lowered under. -/
def setting (p : Program) : Lowering.Setting :=
  ⟨p.options.dialect, p.globals⟩

/-- The Lua text of a file, without a header. -/
def luaText (p : Program) (f : File) : String :=
  Lua.stmtsText p.newLine 0 (Lowering.lower p.setting f.statements)

/-- The artifact of a file. -/
def artifact (p : Program) (f : File) : Artifact :=
  ⟨f.name, (if p.options.noHeader then "" else header ++ p.newLine) ++ p.luaText f⟩

/-- What the dialect lacks for a file. -/
def lacking (p : Program) (f : File) : List Diagnostic :=
  (Lowering.stmtsReports p.options.dialect f.statements).map fun r =>
    r.diagnostic p.options.dialect f.name f.text

/-- Emits a program. -/
def emit (p : Program) : Emission :=
  ⟨p.sources.map p.artifact, p.sources.flatMap p.lacking⟩

end Program

end LuaSnippet
