import LuaSnippet.Path

/-!
# Folders

Files and the folders that hold them, each known by the names on the way to it from the top. A path
is followed one part after the other: every part, also one that names nothing, asks for a folder at
the place that is reached so far, and a climb leads to the folder that holds it. Above the top there
is nothing.
-/

namespace LuaSnippet

/-- The names on the way to a file or a folder, from the top. -/
abbrev Place := List String

/-- A folder with everything in it; `α` is what a file holds. -/
structure Folder (α : Type) where
  /-- The files, each at a place of its own. -/
  files : List (Place × α)
  /-- Places of folders that are there whether a file is in them or not. -/
  made : List Place
deriving Repr

namespace Folder

variable {α : Type}

def empty : Folder α := ⟨[], []⟩

def isFolder (d : Folder α) (p : Place) : Bool :=
  p.isEmpty || d.made.any p.isPrefixOf || d.files.any fun f => f.1 ≠ p && p.isPrefixOf f.1

def file? (d : Folder α) (p : Place) : Option α :=
  (d.files.find? fun f => f.1 = p).map (·.2)

def has (d : Folder α) (p : Place) : Bool :=
  d.isFolder p || (d.file? p).isSome

/-! ### Following paths -/

/-- The place that one part of a path leads to from another. -/
def follow (d : Folder α) (p : Place) (part : List Char) : Option Place :=
  if !d.isFolder p then none
  else match Path.stepOf part with
    | none => some p
    | some .up => if p.isEmpty then none else some p.dropLast
    | some (.down name) => if d.has (p ++ [name]) then some (p ++ [name]) else none

def locate (d : Folder α) (p : Place) (path : String) : Option Place :=
  (Path.parts path.toList).foldlM d.follow p

/-- What the file holds that a path leads to from a place. -/
def read? (d : Folder α) (p : Place) (path : String) : Option α :=
  (d.locate p path).bind d.file?

/-! ### Making files and folders -/

/-- The place that a step leads to where every folder is made that is missing. -/
def enter (p : Place) : Path.Step → Place
  | .up => p.dropLast
  | .down name => p ++ [name]

/-- The places that some steps lead through from another; the last of them comes first. -/
def route (steps : List Path.Step) : List Place :=
  steps.foldl (fun ps s => enter (ps.headD []) s :: ps) []

/-- A folder with one more file; a file that was at its place is no longer there. -/
def put (d : Folder α) (p : Place) (a : α) : Folder α :=
  { d with files := d.files.filter (fun f => f.1 ≠ p) ++ [(p, a)] }

/-- A folder with what a path asks for: a folder if it ends in a slash, and otherwise a file. The
folders on the way are made. -/
def add (d : Folder α) (path : String) (a : α) : Folder α :=
  match route (Path.ofString path).steps with
  | [] => d
  | p :: before =>
    if path.toList.getLast? = some '/' then { d with made := p :: before ++ d.made }
    else { d with made := before ++ d.made }.put p a

/-- The folder that is made by adding paths one after the other. -/
def ofFiles (files : List (String × α)) : Folder α :=
  files.foldl (fun d f => d.add f.1 f.2) empty

end Folder

end LuaSnippet
