import LuaSnippet.Session.Disk
import LuaSnippet.Program.Host
import LuaSnippet.Text.Quoted
import LuaSnippet.Text.Blank

/-!
# Remembered texts

The texts of declaration files are kept under the names that they were asked for by. The first text
read for a name stays, empty or not, and a failed read leaves nothing behind. Beside the texts, a
store keeps the list of all reads that were tried.
-/

namespace LuaSnippet.Session

open Program (Unreadable)

/-- The texts that are kept, in the order in which they were read. -/
abbrev Texts := List (String × String)

namespace Texts

def get? (t : Texts) (name : String) : Option String :=
  (t.find? fun e => e.1 = name).map (·.2)

def names (t : Texts) : List String :=
  (t.map (·.1)).mergeSort fun a b => decide (a ≤ b)

/-- The names as they are shown. -/
def describe (t : Texts) : String :=
  "FileCache \x7b entries: [" ++ LuaSnippet.Text.join ", " (names t |>.map Text.Quoted.encode) ++
    "] \x7d"

end Texts

/-- A read that was tried: the file that it was for, the path, and the text that was found. -/
structure Read where
  file : String
  path : String
  found : Option String
deriving DecidableEq, Repr

/-- Kept texts, and the reads tried so far, in their order. -/
structure Store where
  texts : Texts
  reads : List Read
deriving Repr

namespace Store

/-- Nothing kept and nothing read. -/
def empty : Store := ⟨[], []⟩

/-- Reads a path for a name, and keeps what is found. -/
def fetch (s : Store) (disk : Disk) (name path : String) : Except Unreadable String × Store :=
  let reads := s.reads ++ [⟨name, path, disk.read? path⟩]
  match disk.read? path with
  | some text => (.ok text, ⟨s.texts ++ [(name, text)], reads⟩)
  | none => (.error ⟨name, path⟩, ⟨s.texts, reads⟩)

/-- The text for a name: the one that is kept, or else the one at a path. -/
def load (s : Store) (disk : Disk) (name path : String) : Except Unreadable String × Store :=
  match s.texts.get? name with
  | some text => (.ok text, s)
  | none => s.fetch disk name path

end Store

end LuaSnippet.Session
