/-!
# Ranges of characters

A set of characters that a standard gives by ranges of their numbers.
-/

namespace LuaSnippet.Text

/-- A set of characters: the first and the last number of every range. -/
abbrev Ranges := List (Nat × Nat)

/-- Whether a character lies in one of the ranges. -/
def Ranges.holds (ranges : Ranges) (c : Char) : Bool :=
  ranges.any fun r => r.1 ≤ c.toNat && c.toNat ≤ r.2

end LuaSnippet.Text
