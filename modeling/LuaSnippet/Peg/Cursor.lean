/-!
# Cursors

A cursor is a place in a text that is being read: the number of bytes before it and the characters
from it on. Reading moves a cursor forward only, so the text between two cursors of one reading is
what the first has and the second has no longer.
-/

namespace LuaSnippet.Peg

/-- A place in a text: the bytes before it, and the characters from it on. -/
structure Cursor where
  offset : Nat
  rest : List Char
deriving DecidableEq, Repr, Inhabited

namespace Cursor

def start (text : List Char) : Cursor := ⟨0, text⟩

/-- The place behind one more character, which is `c`, where `rest` follows. -/
def past (cur : Cursor) (c : Char) (rest : List Char) : Cursor :=
  ⟨cur.offset + c.utf8Size, rest⟩

/-- The place behind a given word, if the word stands here. -/
def take? (cur : Cursor) : List Char → Option Cursor
  | [] => some cur
  | w :: ws => match cur.rest with
    | [] => none
    | c :: cs => if c = w then (cur.past c cs).take? ws else none

/-- The characters between two places. -/
def textTo (cur stop : Cursor) : List Char :=
  cur.rest.take (cur.rest.length - stop.rest.length)

end Cursor

end LuaSnippet.Peg
