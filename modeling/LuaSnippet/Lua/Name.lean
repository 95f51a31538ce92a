/-!
# Lua names

Which texts are names in Lua, and the Lua name of a name in a script.
-/

namespace LuaSnippet.Lua

/-- The words that are no names in Lua. -/
def keywords : List String :=
  ["and", "break", "do", "else", "elseif", "end", "false", "for", "function", "goto", "if", "in",
    "local", "nil", "not", "or", "repeat", "return", "then", "true", "until", "while"]

/-- Whether a text is a Lua name. -/
def isName (s : String) : Bool :=
  match s.toList with
  | [] => false
  | c :: cs =>
    (c.isAlpha || c = '_') && cs.all (fun c => c.isAlphanum || c = '_') && !keywords.contains s

/-- A character of a script's name in Lua, which has no dollar signs. -/
def nameChars (c : Char) : List Char :=
  if c = '$' then ['_', '2', '4'] else [c]

/-- The Lua name of a script's name. -/
def nameOf (s : String) : String :=
  if keywords.contains s then "____" ++ s else String.ofList (s.toList.flatMap nameChars)

end LuaSnippet.Lua
