import LuaSnippet.Dialect
import LuaSnippet.Text.Letter.Lower
import LuaSnippet.Text.Within

/-!
# Cases

A case is a snippet with what is expected of it: a Lua text, which may differ between dialects, or an
error. It is tried for some dialects or for all of them. Cases can be left out of a batch, by a mark
of their own, because others are singled out, or by a filter on their names.
-/

namespace LuaSnippet

/-- A snippet with what is expected of it. -/
structure Case where
  name : String
  input : String
  expected : Option String
  /-- Expectations for single dialects, which go before the general one. -/
  expectedBy : List (Dialect × String)
  /-- What the text of an expected error contains. -/
  expectedError : Option String
  /-- The dialects that the case is tried for; none at all stands for all. -/
  dialects : List Dialect
  skip : Bool
  only : Bool
deriving DecidableEq, Repr

namespace Case

def runsOn (c : Case) (d : Dialect) : Bool :=
  c.dialects.isEmpty || c.dialects.contains d

/-- The Lua text that is expected for a dialect. -/
def expectedFor (c : Case) (d : Dialect) : Option String :=
  (c.expectedBy.lookup d).or c.expected

/-- Why a case is left out of a batch. -/
inductive Omission where
  | notSingled
  | skipped
  | filtered (filter : String)
deriving DecidableEq, Repr

def Omission.message : Omission → String
  | notSingled => "not marked 'only' in 'only' mode"
  | skipped => "marked 'skip'"
  | filtered filter => "filtered out by substring: " ++ filter

/-- Whether the name of a case contains a text, in whatever case the letters are. -/
def matchesFilter (c : Case) (filter : String) : Bool :=
  Text.contains (Text.Letter.lower c.name) (Text.Letter.lower filter)

/-- Why a case is left out of a batch in which some cases are singled out or not. -/
def omission (c : Case) (hasOnly : Bool) (filter : Option String) : Option Omission :=
  if hasOnly && !c.only then some .notSingled
  else if c.skip then some .skipped
  else filter.bind fun f => if c.matchesFilter f then none else some (.filtered f)

end Case

end LuaSnippet
