import LuaSnippet.Session.Store
import LuaSnippet.Program.Basic

/-!
# The host of a snippet

A snippet is compiled as if it were a file of a fixed name, which no disk holds. Every other file
comes from the store, and from the disk the first time. Library files have their own directory, and
every other name is a path as it stands. The host promises every file, so that one that cannot be
read ends the compilation.
-/

namespace LuaSnippet.Session

open Program (Unreadable Host)
open Script (Edition File)

/-- The name under which a snippet is compiled. -/
def snippetName : String := "input.ts"

/-- Where the file of a name is read from. -/
def pathOf (library name : String) : String :=
  if "lib.".toList.isPrefixOf name.toList then Path.joinText library name else name

/-- Hands out a file to a compilation of a snippet. -/
def supply (library : String) (disk : Disk) (snippet name : String) (edition : Edition)
    (s : Store) : Except Unreadable File × Store :=
  if name = snippetName then (.ok (.read name snippet edition), s)
  else match s.load disk name (pathOf library name) with
    | (.ok text, s) => (.ok (.read name text edition), s)
    | (.error e, s) => (.error e, s)

/-- The host of a compilation of a snippet. -/
def host (library : String) (disk : Disk) (snippet : String) : Host Store where
  has _ := true
  canonical name := name
  caseSensitive := false
  directory := ""
  newLine := "\n"
  library := Program.libraryName
  fetch := supply library disk snippet

/-- What is shown of a file without reading it: nothing of any. -/
def preview (_ : String) : Option String := some ""

/-- How many keys the host can supply at most: the snippet, the declaration file as it is spelled,
every kept text, and for every folded path of a file the path and the name of a library file there. -/
def supplyBound (disk : Disk) (s : Store) : Nat :=
  2 + s.texts.length + 2 * disk.size

end LuaSnippet.Session
