/-!
# Texts within texts

One text is within another if its characters stand there next to each other; the empty text is
within every text.
-/

namespace LuaSnippet.Text

/-- Whether some characters stand one after the other within others. -/
def isWithin (part : List Char) : List Char → Bool
  | [] => part.isEmpty
  | c :: rest => part.isPrefixOf (c :: rest) || isWithin part rest

def contains (whole part : String) : Bool :=
  isWithin part.toList whole.toList

end LuaSnippet.Text
