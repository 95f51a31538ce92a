import LuaSnippet.Text.Blank

/-!
# Reference directives

A line of a script may name another file that it needs: three slashes and an element `reference`
with a `path`. Blanks may stand before and within a directive, line ends too. Directives are looked
for from the left in the bare text, wherever they stand, and do not overlap.
-/

namespace LuaSnippet.Script.Reference

open LuaSnippet.Text (isBlank)

def word? : List Char → List Char → Option (List Char)
  | [], cs => some cs
  | _ :: _, [] => none
  | w :: ws, c :: cs => if c = w then word? ws cs else none

/-- The text behind a given word, blanks before it left out. -/
def spacedWord? (w : String) (cs : List Char) : Option (List Char) :=
  word? w.toList (cs.dropWhile isBlank)

/-- Whether a character is a quote of either kind. -/
def isQuote (c : Char) : Bool :=
  c = '"' || c = '\''

/-- What stands between two quotes of either kind, and the text behind; empty quotes do not count. -/
def quoted? (cs : List Char) : Option (List Char × List Char) :=
  match cs.dropWhile isBlank with
  | [] => none
  | q :: cs =>
    let inner := cs.takeWhile fun c => !isQuote c
    match isQuote q, inner, cs.dropWhile fun c => !isQuote c with
    | true, _ :: _, _ :: rest => some (inner, rest)
    | _, _, _ => none

/-- The path of the directive that starts here, and the text behind the directive. -/
def directive? (cs : List Char) : Option (List Char × List Char) := do
  let cs ← spacedWord? "///" cs
  let cs ← spacedWord? "<reference" cs
  guard ((cs.head?.map isBlank).getD false)
  let cs ← spacedWord? "path" cs
  let cs ← spacedWord? "=" cs
  let (path, cs) ← quoted? cs
  let cs ← spacedWord? "/>" cs
  pure (path, cs)

/-- The paths of the directives of a text, read from a place that is at the start of a line or not,
leaving out a number of characters first. -/
def scan (atStart : Bool) (leave : Nat) : List Char → List String
  | [] => []
  | c :: cs =>
    match leave with
    | n + 1 => scan false n cs
    | 0 => match if atStart then directive? (c :: cs) else none with
      | some (path, rest) => String.ofList path :: scan false (cs.length - rest.length) cs
      | none => scan (c = '\n') 0 cs

/-- The paths that the directives of a text name, as they are written. -/
def all (text : String) : List String :=
  scan true 0 text.toList

end LuaSnippet.Script.Reference
