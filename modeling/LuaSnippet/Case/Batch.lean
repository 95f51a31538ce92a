import LuaSnippet.Case.Verdict
import LuaSnippet.Case.Folder

/-!
# Batches

All cases of all files, tried one after the other in one session: file by file, case by case, and
for each case dialect by dialect. If any file is at fault, no case is tried. Cases that are singled
out in one file leave out those of all others.
-/

namespace LuaSnippet

/-- A case, with the path of its file. -/
structure Entry where
  file : String
  case : Case
deriving DecidableEq, Repr

namespace Batch

/-- The entries of some files, or the first fault among them. -/
def entries : List CaseFile → Except CaseFile.Fault (List Entry)
  | [] => .ok []
  | f :: rest =>
    match f.cases with
    | .error e => .error e
    | .ok cases =>
      match entries rest with
      | .error e => .error e
      | .ok es => .ok (cases.map (⟨f.path, ·⟩) ++ es)

/-- The dialects of a case, in reporting order. -/
def dialectsOf (c : Case) : List Dialect :=
  Dialect.all.filter c.runsOn

/-- Tries an entry for some dialects, or leaves it out. -/
def runEntry (omission : Option Case.Omission) (e : Entry) (disk : Session.Disk) :
    List Dialect → Session → List Result × Session
  | [], s => ([], s)
  | d :: ds, s =>
    let first : Result × Session :=
      match omission with
      | some o => (⟨e.file, e.case.name, d, .omitted o.message⟩, s)
      | none => e.case.check s disk e.file d
    let rest := runEntry omission e disk ds first.2
    (first.1 :: rest.1, rest.2)

def runEntries (hasOnly : Bool) (filter : Option String) (disk : Session.Disk) :
    List Entry → Session → List Result × Session
  | [], s => ([], s)
  | e :: es, s =>
    let first := runEntry (e.case.omission hasOnly filter) e disk (dialectsOf e.case) s
    let rest := runEntries hasOnly filter disk es first.2
    (first.1 ++ rest.1, rest.2)

def hasOnly (es : List Entry) : Bool :=
  es.any (·.case.only)

/-- Tries all cases of some files. -/
def run (s : Session) (disk : Session.Disk) (files : List CaseFile) (filter : Option String) :
    Except CaseFile.Fault (List Result) × Session :=
  match entries files with
  | .error e => (.error e, s)
  | .ok es =>
    let r := runEntries (hasOnly es) filter disk es s
    (.ok r.1, r.2)

end Batch

end LuaSnippet
