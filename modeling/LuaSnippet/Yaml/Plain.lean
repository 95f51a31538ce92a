import LuaSnippet.Yaml.Gap

/-!
# Plain scalars

A scalar without quotes ends where something else can begin: at a colon or a comment that is set
apart, at a line that is not far enough in, and within brackets at a comma or another bracket.
-/

namespace LuaSnippet.Yaml.Plain

/-- A scalar that was read, and where reading goes on. -/
structure Result where
  text : List Char
  /-- Whether a line ended behind the scalar. -/
  atLineStart : Bool
  mark : Mark
  rest : List Char

/-- The signs that end a scalar within brackets. -/
def flowSigns : List Char := [',', '[', ']', '\x7b', '\x7d']

/-- Whether a scalar ends before a character that stands behind no blank. -/
def endsAt (flow : Bool) (c : Char) (rest : List Char) : Bool :=
  (c = ':' && isApart rest) || (flow && flowSigns.contains c)

/-- Whether a colon within brackets stands before a sign that it cannot stand before. -/
def isLost (flow : Bool) (c : Char) (rest : List Char) : Bool :=
  flow && c = ':' && (match rest with | d :: _ => ('?' :: flowSigns).contains d | [] => false)

/-- Whether a scalar ends before a character that stands behind blanks. -/
def endsBehind (flow : Bool) (indent : Nat) (g : Gap) (m : Mark) (c : Char) (rest : List Char) :
    Bool :=
  !g.isNone && (c = '#' || atFence m (c :: rest) || (g.hasBreak && !flow && m.column < indent))

/-- Reads on, behind some text in reverse order and a gap. Lines have to be in as far as `indent`.
There is no result for a tab in place of indentation, and for a colon where none can stand. -/
def scan (flow : Bool) (indent : Nat) (done : List Char) (g : Gap) (m : Mark) :
    List Char → Option Result
  | [] => some ⟨done.reverse, g.hasBreak, m, []⟩
  | c :: rest =>
    if isBlank c || isBreak c then
      if c = '\t' && g.hasBreak && m.column < indent then none
      else scan flow indent done (g.push c) (m.after c) rest
    else if endsBehind flow indent g m c rest then some ⟨done.reverse, g.hasBreak, m, c :: rest⟩
    else if isLost flow c rest then none
    else if endsAt flow c rest then some ⟨done.reverse, g.hasBreak, m, c :: rest⟩
    else scan flow indent (c :: (g.text.reverse ++ done)) .none (m.after c) rest

/-- Reads a plain scalar. -/
def read (flow : Bool) (indent : Nat) (m : Mark) (cs : List Char) : Option Result :=
  scan flow indent [] .none m cs

end LuaSnippet.Yaml.Plain
