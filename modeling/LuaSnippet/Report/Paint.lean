/-!
# Coloured texts

Terminals take colours as short codes among the text. A text is painted by a code before it for each
property and one behind it that takes them back.
-/

namespace LuaSnippet.Report

inductive Colour where
  | red
  | green
  | yellow
deriving DecidableEq, Repr

namespace Colour

def escape (number : String) : String :=
  "\x1b[" ++ number ++ "m"

/-- The code that takes all properties back. -/
def reset : String := escape "0"

def number : Colour → String
  | red => "31"
  | green => "32"
  | yellow => "33"

def paint (wanted bold : Bool) (c : Colour) (text : String) : String :=
  if wanted then
    reset ++ (if bold then escape "1" else "") ++ escape c.number ++ text ++ reset
  else text

end Colour

end LuaSnippet.Report
