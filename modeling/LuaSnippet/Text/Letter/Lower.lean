import LuaSnippet.Text.Letter.Table

/-!
# Small letters

The lower case of a text is taken character by character from the table of capital letters, with
the two exceptions of the standard: the dotted capital I becomes two characters, and a capital
sigma becomes the final sigma where it ends a word. A sigma ends a word if a letter with case
stands before it and none after it, both looked for past the characters that case rules ignore.
-/

namespace LuaSnippet.Text.Letter

def Run.holds (r : Run) (n : Nat) : Bool :=
  r.first ≤ n && n ≤ r.last && (n - r.first) % r.step == 0

/-- The small letter of a character that has a single one, and the character itself otherwise. -/
def small (c : Char) : Char :=
  if c.toNat < 0x80 then (if c.isUpper then Char.ofNat (c.toNat + 32) else c)
  else match capitalRuns.find? (·.holds c.toNat) with
    | some r => Char.ofNat (Int.ofNat c.toNat + r.delta).toNat
    | none => c

/-- Whether the first character that case rules do not ignore is a letter with case. -/
def startsCased (cs : List Char) : Bool :=
  match cs.dropWhile ignorableRanges.holds with
  | [] => false
  | c :: _ => casedRanges.holds c

/-- The lower case of one character, given what stands before it (nearest first) and after it. -/
def lowerOne (before : List Char) (c : Char) (after : List Char) : List Char :=
  if c = 'Σ' then [if startsCased before && !startsCased after then 'ς' else 'σ']
  else if c = 'İ' then ['i', '\u0307']
  else [small c]

/-- The lower case of a text, given what stands before it (nearest first). -/
def lowerFrom (before : List Char) : List Char → List Char
  | [] => []
  | c :: cs => lowerOne before c cs ++ lowerFrom (c :: before) cs

def lower (s : String) : String :=
  String.ofList (lowerFrom [] s.toList)

end LuaSnippet.Text.Letter
