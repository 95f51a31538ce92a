import LuaSnippet.Program.Host

/-!
# Loading

Loading a file loads the files it refers to first, one after the other and depth first, so that a
file comes after everything it needs, as far as there is no cycle. A file is loaded once, whatever
its names. A file that is not there is reported and left out; one that cannot be read ends the
loading.

How deep references go is limited by a number. A host can supply files for only so many keys, and
every level of references takes another one of them, so with that number as the limit no reference
is ever left aside.
-/

namespace LuaSnippet.Program

open Script (Edition File)

/-- The number of the diagnostic for a file that is not there. -/
def notFoundCode : Nat := 6053

/-- What is loaded so far: the keys that were met, the files in their order, and the files that were
not there. -/
structure Loaded where
  seen : List String
  files : List File
  diagnostics : List Diagnostic

namespace Loaded

def empty : Loaded := ⟨[], [], []⟩

def meet (l : Loaded) (key : String) : Loaded := { l with seen := key :: l.seen }

def push (l : Loaded) (f : File) : Loaded := { l with files := l.files ++ [f] }

/-- The diagnostic for a file that is not there; it points to the start of the file that refers to
it, if there is one. -/
def notFound (name : String) (parent : Option String) : Diagnostic :=
  let d := Diagnostic.error notFoundCode ("File '" ++ name ++ "' not found.")
  match parent with
  | some file => d.place file "" 0
  | none => d

def miss (l : Loaded) (name : String) (parent : Option String) : Loaded :=
  { l with diagnostics := l.diagnostics ++ [notFound name parent] }

end Loaded

/-- What loading comes to, and the state it leaves the host in. -/
abbrev Loading (σ : Type) := Except Unreadable Loaded × σ

variable {σ : Type}

/-- Loads several files one after the other, up to the first that cannot be read. -/
def loadEach (load : String → Loaded → σ → Loading σ) : List String → Loaded → σ → Loading σ
  | [], l, w => (.ok l, w)
  | name :: names, l, w =>
    match load name l w with
    | (.ok l, w) => loadEach load names l w
    | (.error e, w) => (.error e, w)

/-- The names that a file refers to, seen from its own directory. -/
def referencesOf (name : String) (f : File) : List String :=
  f.references.map (Path.resolve (Path.directoryOf name))

/-- Loads a file and what it refers to, up to a depth. -/
def load (h : Host σ) (edition : Edition) :
    Nat → Option String → String → Loaded → σ → Loading σ
  | 0, _, _, l, w => (.ok l, w)
  | depth + 1, parent, name, l, w =>
    if l.seen.contains (h.key name) then (.ok l, w)
    else if h.has name then
      match h.fetch name edition w with
      | (.error e, w) => (.error e, w)
      | (.ok f, w) =>
        match loadEach (load h edition depth (some name)) (referencesOf name f)
          (l.meet (h.key name)) w with
        | (.ok l, w) => (.ok (l.push f), w)
        | (.error e, w) => (.error e, w)
    else (.ok ((l.meet (h.key name)).miss name parent), w)

end LuaSnippet.Program
