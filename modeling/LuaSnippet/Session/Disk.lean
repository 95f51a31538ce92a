import LuaSnippet.Folder

/-!
# Disks

Where files are read from: some that were written, laid over a folder that is always there. A written
file is known by its path as it is spelled. The folder is reached through mounts, texts that a path
starts with; the rest of the path is then followed from a place in the folder. Deleting a written
file shows what is beneath it again.
-/

namespace LuaSnippet.Session

/-- A way into a folder: what paths start with, and the place that the rest of them is seen from. -/
structure Mount where
  opening : String
  place : Place
deriving DecidableEq, Repr

namespace Mount

/-- What is left of a path behind a mount, if the path starts there and does not start anew. -/
def rest? (m : Mount) (path : String) : Option String :=
  if m.opening.toList.isPrefixOf path.toList then
    let rest := path.toList.drop m.opening.length
    if rest.head? = some '/' then none else some (String.ofList rest)
  else none

/-- The text of a file of a folder, by its path through a mount. -/
def read? (m : Mount) (d : Folder String) (path : String) : Option String :=
  (m.rest? path).bind (d.read? m.place)

end Mount

/-- Files by their paths, over a folder that is reached through mounts. -/
structure Disk where
  written : List (String × String)
  mounts : List Mount
  folder : Folder String
deriving Repr

namespace Disk

def written? (d : Disk) (path : String) : Option String :=
  (d.written.find? fun f => f.1 = path).map (·.2)

/-- The text of a file of the folder. -/
def mounted? (d : Disk) (path : String) : Option String :=
  d.mounts.findSome? fun m => m.read? d.folder path

def read? (d : Disk) (path : String) : Option String :=
  (d.written? path).or (d.mounted? path)

/-- The written files without one. -/
def delete (d : Disk) (path : String) : Disk :=
  { d with written := d.written.filter fun f => f.1 ≠ path }

def write (d : Disk) (path text : String) : Disk :=
  { d.delete path with written := (path, text) :: (d.delete path).written }

/-- A bound on the number of folded paths that lead to files: each written file has one, and each
file of the folder three for each mount, which may cut a path where its rest stays in place, climbs
first or only goes down. -/
def size (d : Disk) : Nat :=
  d.written.length + 3 * (d.mounts.length * d.folder.files.length)

def ofFolder (folder : Folder String) (mounts : List Mount) : Disk := ⟨[], mounts, folder⟩

/-- A disk on which some files are written one after the other. -/
def writeAll (d : Disk) (files : List (String × String)) : Disk :=
  files.foldl (fun d f => d.write f.1 f.2) d

end Disk

end LuaSnippet.Session
