/-!
# Paths

A path is read as what it names step by step: whether it starts at the root, and then names and
climbs (`..`); empty parts and `.` name nothing. Folding a path lets each climb undo the step
before it without looking at any disk.

Some paths are only handed on and never followed. Those are joined as texts and nothing is folded.
-/

namespace LuaSnippet

/-- One step of a path: into a named entry, or up. -/
inductive Path.Step where
  | up
  | down (name : String)
deriving DecidableEq, Repr

/-- What a path says: where it starts and the steps it takes. -/
structure Path where
  absolute : Bool
  steps : List Path.Step
deriving DecidableEq, Repr

namespace Path

/-- The parts of a text between its slashes. -/
def parts : List Char → List (List Char)
  | [] => [[]]
  | c :: cs =>
    if c = '/' then [] :: parts cs
    else match parts cs with
      | [] => [[c]]
      | p :: ps => (c :: p) :: ps

/-- The step that one part of a path takes, if any. -/
def stepOf (part : List Char) : Option Step :=
  if part = [] ∨ part = ['.'] then none
  else if part = ['.', '.'] then some .up
  else some (.down (String.ofList part))

/-- A text read as a path. -/
def ofString (s : String) : Path :=
  ⟨s.toList.head? = some '/', (parts s.toList).filterMap stepOf⟩

def stepText : Step → List Char
  | .up => ['.', '.']
  | .down name => name.toList

/-- The texts of some steps, a slash between neighbours. -/
def stepsText : List Step → List Char
  | [] => []
  | [s] => stepText s
  | s :: rest => stepText s ++ '/' :: stepsText rest

/-- The text of a path. -/
def toString (p : Path) : String :=
  String.ofList ((if p.absolute then ['/'] else []) ++ stepsText p.steps)

/-- The directory that holds what a path names; a path without steps is held by the empty path. -/
def parent (p : Path) : Path :=
  match p.steps with
  | [] => ⟨false, []⟩
  | _ :: _ => ⟨p.absolute, p.steps.dropLast⟩

/-- The path `q` seen from the directory `p`. -/
def append (p q : Path) : Path :=
  if q.absolute then q else ⟨p.absolute, p.steps ++ q.steps⟩

/-- Adds one step to folded steps: a climb undoes the last step, and stays where there is none. -/
def foldStep (done : List Step) : Step → List Step
  | .down name => done ++ [.down name]
  | .up => if done = [] then [.up] else done.dropLast

/-- A path with every climb undone against the step before it. -/
def fold (p : Path) : Path :=
  ⟨p.absolute, p.steps.foldl foldStep []⟩

/-- The text of a path given relative to the directory `base`, folded. -/
def resolve (base : Path) (relative : String) : String :=
  (base.append (ofString relative)).fold.toString

/-- The directory that holds a named file. -/
def directoryOf (name : String) : Path :=
  (ofString name).parent

/-- Two path texts put one after the other, as they are: a text that starts at the root stands
alone, and a slash is added only between texts that have none there. -/
def joinText (base rest : String) : String :=
  if rest.toList.head? = some '/' then rest
  else if base = "" ∨ base.toList.getLast? = some '/' then base ++ rest
  else base ++ "/" ++ rest

/-- Whether a part of a path names nothing. -/
def isIdle (part : List Char) : Bool := (stepOf part).isNone

/-- The text of a path without its last name, and without slashes and idle parts at its end. All
that stands before those stays as it is. -/
def directoryText (path : String) : String :=
  match parts path.toList with
  | [] => ""
  | first :: rest =>
    match rest.reverse.dropWhile isIdle with
    | [] => ""
    | _ :: before =>
      let kept := (before.dropWhile isIdle).reverse
      if first = [] ∧ kept = [] then "/" else String.ofList (['/'].intercalate (first :: kept))

end Path

end LuaSnippet
