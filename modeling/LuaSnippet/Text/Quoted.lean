import LuaSnippet.Text.Quoted.Table

/-!
# Quoted texts

A text between double quotes, as it is shown in a list of names. Quotes, backslashes and the usual
control characters are written with a backslash, and every other hidden character by its number.
-/

namespace LuaSnippet.Text.Quoted

/-- A digit of a number to the base sixteen. -/
def hexDigit (n : Nat) : Char :=
  "0123456789abcdef".toList.getD n '0'

/-- The digits of a number to the base sixteen, before some others. -/
def hexBefore (rest : List Char) (n : Nat) : List Char :=
  if n < 16 then hexDigit n :: rest else hexBefore (hexDigit (n % 16) :: rest) (n / 16)

/-- A number to the base sixteen, without zeros before it. -/
def hex (n : Nat) : List Char :=
  hexBefore [] n

/-- One character between quotes. -/
def encodeChar (c : Char) : List Char :=
  if c = '"' then ['\\', '"']
  else if c = '\\' then ['\\', '\\']
  else if c = '\n' then ['\\', 'n']
  else if c = '\t' then ['\\', 't']
  else if c = '\r' then ['\\', 'r']
  else if c = '\x00' then ['\\', '0']
  else if hiddenRanges.holds c then ['\\', 'u', '\x7b'] ++ hex c.toNat ++ ['\x7d']
  else [c]

/-- A text between double quotes. -/
def encode (s : String) : String :=
  String.ofList ('"' :: s.toList.flatMap encodeChar ++ ['"'])

end LuaSnippet.Text.Quoted
