/-!
# Quoted strings

A string literal of Lua stands between double quotes. Quotes, backslashes, the three white
characters that have a letter, and the character zero are written with a backslash; all else is
written as it is.
-/

namespace LuaSnippet.Lua

/-- A character within a string literal. -/
def quoteChar (c : Char) : List Char :=
  if c = '"' then ['\\', '"']
  else if c = '\\' then ['\\', '\\']
  else if c = '\n' then ['\\', 'n']
  else if c = '\r' then ['\\', 'r']
  else if c = '\t' then ['\\', 't']
  else if c = '\x00' then ['\\', '0']
  else [c]

/-- The characters of a string literal. -/
def quoteChars (cs : List Char) : List Char :=
  '"' :: (cs.flatMap quoteChar ++ ['"'])

/-- A string literal. -/
def quote (s : String) : String :=
  String.ofList (quoteChars s.toList)

end LuaSnippet.Lua
