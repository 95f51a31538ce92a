/-!
# White space and lines

The blank characters are those with the Unicode property `White_Space`. Trimming removes them from
both ends of a text. Cutting at line feeds comes in two forms: `pieces` keeps every part, so that
joining gives the text back, and `lines` is the reader's view, in which a final line feed opens no
further line and a carriage return before a line feed belongs to the line end.
-/

namespace LuaSnippet.Text

/-- The characters with the Unicode property `White_Space`. -/
def isBlank (c : Char) : Bool :=
  let n := c.toNat
  (9 ≤ n && n ≤ 13) || n == 0x20 || n == 0x85 || n == 0xA0 || n == 0x1680 ||
    (0x2000 ≤ n && n ≤ 0x200A) || n == 0x2028 || n == 0x2029 || n == 0x202F || n == 0x205F ||
    n == 0x3000

/-- A text without the blank characters at its end. -/
def trimEnd (cs : List Char) : List Char :=
  (cs.reverse.dropWhile isBlank).reverse

/-- A text without the blank characters at its two ends. -/
def trimChars (cs : List Char) : List Char :=
  trimEnd (cs.dropWhile isBlank)

/-- A text without the blank characters at its two ends. -/
def trim (s : String) : String :=
  String.ofList (trimChars s.toList)

/-- The parts of a text between its line feeds; the empty text is one empty part. -/
def pieces : List Char → List (List Char)
  | [] => [[]]
  | c :: cs =>
    if c = '\n' then [] :: pieces cs
    else match pieces cs with
      | [] => [[c]]
      | p :: ps => (c :: p) :: ps

/-- A line without one carriage return at its end. -/
def dropReturn (cs : List Char) : List Char :=
  if cs.getLast? = some '\r' then cs.dropLast else cs

/-- The lines among the parts of a text: the last part has no line feed after it, so it counts only
if it is not empty, and its carriage return is its own. -/
def linesOfPieces : List (List Char) → List (List Char)
  | [] => []
  | [last] => if last = [] then [] else [last]
  | p :: ps => dropReturn p :: linesOfPieces ps

def lines (s : String) : List String :=
  (linesOfPieces (pieces s.toList)).map String.ofList

/-- The parts of a text between its line feeds. -/
def splitLines (s : String) : List String :=
  (pieces s.toList).map String.ofList

/-- The texts of a list with a separator between neighbours. -/
def join (sep : String) : List String → String
  | [] => ""
  | [s] => s
  | s :: rest => s ++ sep ++ join sep rest

end LuaSnippet.Text
