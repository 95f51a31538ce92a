/-!
# Escapes in strings

A backslash in a string literal of a script gives the next character another meaning: four letters
stand for characters that cannot be seen, and every other character stands for itself.
-/

namespace LuaSnippet.Script

/-- What a character means behind a backslash. -/
def escaped (c : Char) : Char :=
  if c = 'n' then '\n'
  else if c = 't' then '\t'
  else if c = 'r' then '\r'
  else if c = '0' then '\x00'
  else c

/-- The value of the characters between the quotes of a string literal. -/
def unescape : List Char → List Char
  | [] => []
  | [c] => [c]
  | c :: d :: cs =>
    if c = '\\' then escaped d :: unescape cs else c :: unescape (d :: cs)

end LuaSnippet.Script
