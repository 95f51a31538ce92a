import LuaSnippet.Peg.Cursor

/-!
# White space and comments in scripts

Between two tokens of a script may stand spaces, tabs, line ends, comments to the end of the line,
and comments between `/*` and `*/`. A comment of the second kind that is never closed is no comment.
-/

namespace LuaSnippet.Script

open Peg (Cursor)

/-- The characters that may stand between tokens outside comments. -/
def isSpace (c : Char) : Bool :=
  c = ' ' || c = '\t' || c = '\r' || c = '\n'

def isLineEnd (c : Char) : Bool :=
  c = '\n' || c = '\r'

/-- Where a reader is who passes over blanks: between tokens, in a comment to the end of the line,
or in a comment that opened at the given place. -/
inductive BlankState where
  | between
  | line
  | block (opened : Cursor)
deriving DecidableEq, Repr

/-- The place behind all blanks, for a reader `offset` bytes into a text. -/
def skipFrom : BlankState → Nat → List Char → Cursor
  | .between, offset, [] => ⟨offset, []⟩
  | .line, offset, [] => ⟨offset, []⟩
  | .block opened, _, [] => opened
  | .between, offset, c :: cs =>
    if isSpace c then skipFrom .between (offset + c.utf8Size) cs
    else if c = '/' then
      match cs with
      | [] => ⟨offset, c :: cs⟩
      | d :: ds =>
        if d = '/' then skipFrom .line (offset + 2) ds
        else if d = '*' then skipFrom (.block ⟨offset, c :: cs⟩) (offset + 2) ds
        else ⟨offset, c :: cs⟩
    else ⟨offset, c :: cs⟩
  | .line, offset, c :: cs =>
    if isLineEnd c then skipFrom .between (offset + c.utf8Size) cs
    else skipFrom .line (offset + c.utf8Size) cs
  | .block opened, offset, c :: cs =>
    if c = '*' then
      match cs with
      | [] => opened
      | d :: ds =>
        if d = '/' then skipFrom .between (offset + 2) ds
        else skipFrom (.block opened) (offset + c.utf8Size) (d :: ds)
    else skipFrom (.block opened) (offset + c.utf8Size) cs

def skipBlanks (cur : Cursor) : Cursor :=
  skipFrom .between cur.offset cur.rest

end LuaSnippet.Script
