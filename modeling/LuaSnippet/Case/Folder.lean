import LuaSnippet.Case.File
import LuaSnippet.Folder

/-!
# Folders of case files

Case files are found in a folder and in all folders within it, by the ending of their names. They
come in the order of their paths, which are compared name by name.
-/

namespace LuaSnippet.Folder

/-- The ending of a name, behind its last dot; a dot at the start of a name does not count. -/
def ending? (name : List Char) : Option (List Char) :=
  match name.reverse.dropWhile (· ≠ '.') with
  | [] | [_] => none
  | _ :: _ :: _ => some (name.reverse.takeWhile (· ≠ '.')).reverse

/-- Whether a place is that of a case file, by its name. -/
def isCasePlace (p : Place) : Bool :=
  match p.getLast? with
  | some name =>
    ending? name.toList = some "yaml".toList || ending? name.toList = some "yml".toList
  | none => false

def comesBefore : Place → Place → Bool
  | [], _ => true
  | _ :: _, [] => false
  | a :: as, b :: bs => if a = b then comesBefore as bs else a < b

/-- The names on the way from a place to a file, if the file is there or in a folder there. -/
def seenFrom? (p file : Place) : Option Place :=
  if p.isPrefixOf file then some (file.drop p.length) else none

/-- The case files at a place and in the folders there, in their order, each with the names on the
way to it. -/
def casesFrom {α : Type} (d : Folder α) (p : Place) : List (Place × α) :=
  (d.files.filterMap fun f =>
    (seenFrom? p f.1).bind fun below => if isCasePlace f.1 then some (below, f.2) else none)
    |>.mergeSort fun a b => comesBefore a.1 b.1

/-- The path of a file, shown behind that of the folder it was looked for in. -/
def shownPath (root : String) (below : Place) : String :=
  if below.isEmpty then root
  else Path.joinText root (String.ofList (Path.stepsText (below.map .down)))

/-- The case files that a path leads to, where the files hold texts or something else; `home` is
the path of the folder. A path that names a file leads to that file alone, and a path from the root
leads out of the folder. -/
def caseFiles (d : Folder (Option String)) (home path : String) : List CaseFile :=
  if path.toList.head? = some '/' then []
  else match d.locate [] path with
    | none => []
    | some p => (d.casesFrom p).map fun f => ⟨shownPath (Path.joinText home path) f.1, f.2⟩

end LuaSnippet.Folder
