/-!
# Texts given by their lines

A longer text is written down as the list of its lines. Every line ends in a line feed, the last one
too.
-/

namespace LuaSnippet.Text

/-- The text with some lines, each with a line feed behind it. -/
def unlines : List String → String
  | [] => ""
  | l :: rest => l ++ "\n" ++ unlines rest

end LuaSnippet.Text
