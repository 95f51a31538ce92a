import LuaSnippet.Dialect
import LuaSnippet.Path

/-!
# Declaration files

Every dialect is compiled with a declaration file, which says what the dialect offers. A dialect
without one cannot be compiled for.
-/

namespace LuaSnippet.Session

/-- The path of the declaration file of each dialect that has one. -/
abbrev Declarations := Dialect → Option String

namespace Declarations

/-- The declaration files of a directory, one for each dialect. -/
def ofRoot (root : String) : Declarations := fun d =>
  some (Path.joinText root d.declarationFile)

/-- The declaration files with one dialect changed. -/
def set (m : Declarations) (d : Dialect) (path : Option String) : Declarations := fun d' =>
  if d' = d then path else m d'

def paths (m : Declarations) : List (Option String) :=
  Dialect.all.map m

end Declarations

end LuaSnippet.Session
