import LuaSnippet.Bundled.Core
import LuaSnippet.Bundled.Special
import LuaSnippet.Bundled.Library
import LuaSnippet.Bundled.Cases
import LuaSnippet.Folder

/-!
# The bundled files

Declaration files for every dialect, a default library and some case files, each in a folder of its
own.
-/

namespace LuaSnippet.Bundled

/-- The declaration files, at their places in one folder. -/
def declarationFiles : List (Place × String) := [
  (["5.1.d.ts"], all51),
  (["5.2.d.ts"], all52),
  (["5.3.d.ts"], all53),
  (["jit.d.ts"], allJit),
  (["core", "index.d.ts"], core),
  (["core", "language-extensions.d.ts"], language),
  (["core", "global.d.ts"], global),
  (["core", "math.d.ts"], math),
  (["core", "string.d.ts"], string),
  (["core", "table.d.ts"], table),
  (["core", "os.d.ts"], os),
  (["special", "5.1-only.d.ts"], only51),
  (["special", "5.2-only.d.ts"], only52),
  (["special", "5.2-plus.d.ts"], from52),
  (["special", "5.3-only.d.ts"], only53),
  (["special", "jit-only.d.ts"], onlyJit)]

/-- The files of the default library, at their places in one folder. -/
def libraryFiles : List (Place × String) := [
  (["lib.d.ts"], library),
  (["lib.es5.d.ts"], library5),
  (["lib.es6.d.ts"], library6)]

/-- The case files, at their places in one folder. -/
def caseFiles : List (Place × String) := [
  (["global.yaml"], globalCases),
  (["targets.yaml"], dialectCases)]

/-- Files of a folder, seen from further up. -/
def below (p : Place) (files : List (Place × String)) : List (Place × String) :=
  files.map fun f => (p ++ f.1, f.2)

def declarationPlace : Place := ["fixtures", "lua-types"]

def libraryPlace : Place := ["fixtures", "typescript", "lib"]

def casePlace : Place := ["cases"]

def folder : Folder String :=
  ⟨below declarationPlace declarationFiles ++ below libraryPlace libraryFiles ++
    below casePlace caseFiles, []⟩

end LuaSnippet.Bundled
