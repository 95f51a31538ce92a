import LuaSnippet.Dialect
import LuaSnippet.Text.Blank

/-!
# Groups of checks

A check is tried for every dialect, each time in a group of its own, and a failure in one group does
not keep the others from being tried. What a check fails with is a sentence, or something else that
cannot be shown.
-/

namespace LuaSnippet

inductive Fault where
  | sentence (text : String)
  | other
deriving DecidableEq, Repr

def Fault.message : Fault → String
  | sentence text => text
  | other => "non-string panic payload"

/-- The result of one group: its title, and the sentence that it failed with, if it did. -/
structure Group where
  title : String
  failure : Option String
deriving DecidableEq, Repr

namespace Group

def isFailure (g : Group) : Bool :=
  g.failure.isSome

/-- The results of a check, one for each dialect in reporting order. -/
def runAll (name : String) (check : Dialect → Option Fault) : List Group :=
  Dialect.all.map fun d => ⟨d.title name, (check d).map Fault.message⟩

def failureLine (g : Group) : Option String :=
  g.failure.map fun message => g.title ++ ": " ++ message

/-- The sentence about some groups together, if any of them failed. -/
def summary (groups : List Group) : Option String :=
  match groups.filterMap failureLine with
  | [] => none
  | lines =>
    some (toString lines.length ++ " of " ++ toString Dialect.all.length ++
      " target groups failed:\n" ++ Text.join "\n" lines)

end Group

end LuaSnippet
