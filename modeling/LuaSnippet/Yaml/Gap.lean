import LuaSnippet.Yaml.Mark

/-!
# Gaps in scalars

Where a scalar goes over several lines, its lines are joined: one line end becomes a space, and of
several the first is dropped. Blanks around a line end vanish, and blanks within a line stay. So
what a gap stands for is known only at its end.
-/

namespace LuaSnippet.Yaml

/-- The blank characters since the last other one, in the order in which they came. -/
inductive Gap where
  /-- Blanks within a line. -/
  | blanks (text : List Char)
  /-- At least one line end: the first, and the others. -/
  | lines (first rest : List Char)
deriving DecidableEq, Repr

namespace Gap

def none : Gap := .blanks []

def hasBreak : Gap → Bool
  | blanks _ => false
  | lines _ _ => true

def isNone : Gap → Bool
  | blanks [] => true
  | _ => false

/-- A gap with one more blank or line end. -/
def push (g : Gap) (c : Char) : Gap :=
  match g with
  | blanks text => if isBreak c then lines [c] [] else blanks (text ++ [c])
  | lines first rest => if isBreak c then lines first (rest ++ [c]) else lines first rest

/-- What a gap stands for inside a scalar. -/
def text : Gap → List Char
  | blanks text => text
  | lines first rest =>
    if first = ['\n'] then (if rest = [] then [' '] else rest) else first ++ rest

end Gap

end LuaSnippet.Yaml
