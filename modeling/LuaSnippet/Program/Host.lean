import LuaSnippet.Script.File
import LuaSnippet.Path
import LuaSnippet.Text.Letter.Lower

/-!
# Hosts

A program is loaded through a host: it says which files there are, under which names two files are
the same, and hands out their texts. Handing out a file may change the host's own state, and may
fail.
-/

namespace LuaSnippet.Program

open Script (Edition File)

/-- The failure to read a file from a path. -/
structure Unreadable where
  file : String
  path : String
deriving DecidableEq, Repr

/-- The sentence for a file that cannot be read. -/
def Unreadable.message (u : Unreadable) : String :=
  "failed to read '" ++ u.file ++ "' from " ++ u.path

/-- The name by which reports refer to this kind of failure. -/
def Unreadable.code (_ : Unreadable) : String :=
  "harness::host::read"

def Unreadable.help (_ : Unreadable) : String :=
  "library and declaration fixtures must stay readable for the whole run"

/-- Where the files of a program come from; `σ` is the state of the host. -/
structure Host (σ : Type) where
  /-- Whether there is a file of a name. -/
  has : String → Bool
  /-- The form of a name in which names of one file agree. -/
  canonical : String → String
  caseSensitive : Bool
  /-- The directory that relative names of root files are seen from, or an empty text. -/
  directory : String
  newLine : String
  /-- The name of the default library of an edition. -/
  library : Edition → String
  /-- Hands out a file. -/
  fetch : String → Edition → σ → Except Unreadable File × σ

/-- What tells files apart: the canonical name, in small letters if the host does not mind case. -/
def Host.key {σ : Type} (h : Host σ) (name : String) : String :=
  if h.caseSensitive then h.canonical name else Text.Letter.lower (h.canonical name)

end LuaSnippet.Program
