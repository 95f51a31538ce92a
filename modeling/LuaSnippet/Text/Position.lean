/-!
# Positions in a text

A place in a text is a byte offset into its UTF-8 form. People count lines and columns instead:
both from one, lines by the line feeds before the place and columns by the characters since the
last of them. An offset inside a character is no place at all; one past the end means the end.
-/

namespace LuaSnippet.Text

/-- A line and a column, both counted from one. -/
structure Position where
  line : Nat
  column : Nat
deriving DecidableEq, Repr, Inhabited

namespace Position

def first : Position := ⟨1, 1⟩

/-- The place after a character that stands at `p`. -/
def after (p : Position) (c : Char) : Position :=
  if c = '\n' then ⟨p.line + 1, 1⟩ else ⟨p.line, p.column + 1⟩

/-- The place `offset` bytes further than `p`, where the text goes on with the given characters. -/
def walk (p : Position) : List Char → Nat → Option Position
  | [], _ => some p
  | c :: cs, offset =>
    if offset = 0 then some p
    else if c.utf8Size ≤ offset then (p.after c).walk cs (offset - c.utf8Size)
    else none

end Position

/-- The line and column of a byte offset; there is none for an offset inside a character. -/
def position? (text : String) (offset : Nat) : Option Position :=
  Position.first.walk text.toList offset

end LuaSnippet.Text
