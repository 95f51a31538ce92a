/-!
# Decimal numerals

Which texts are numbers to a reader of decimal floating point: an optional sign, then digits with a
point anywhere among them and an optional exponent, or one of the names of what is no ordinary
number, in letters of either case.
-/

namespace LuaSnippet.Text.Numeral

/-- A text without one sign at its start. -/
def dropSign : List Char → List Char
  | [] => []
  | c :: cs => if c = '+' || c = '-' then cs else c :: cs

/-- Whether a text is one digit or more, and nothing else. -/
def isDigits (cs : List Char) : Bool :=
  !cs.isEmpty && cs.all Char.isDigit

def isExponent : List Char → Bool
  | [] => true
  | c :: cs => (c = 'e' || c = 'E') && isDigits (dropSign cs)

/-- Whether a text is digits, with a point among them or not, and an optional exponent. -/
def isFinite (cs : List Char) : Bool :=
  let whole := cs.takeWhile Char.isDigit
  match cs.dropWhile Char.isDigit with
  | [] => !whole.isEmpty
  | c :: rest =>
    if c = '.' then
      let part := rest.takeWhile Char.isDigit
      (!whole.isEmpty || !part.isEmpty) && isExponent (rest.dropWhile Char.isDigit)
    else !whole.isEmpty && isExponent (c :: rest)

def names : List String := ["inf", "infinity", "nan"]

def isNumeral (s : String) : Bool :=
  let cs := dropSign s.toList
  isFinite cs || names.contains (String.ofList (cs.map Char.toLower))

end LuaSnippet.Text.Numeral
