import LuaSnippet.Peg.Cursor

/-!
# Parsing expression grammars

A grammar gives every rule a body and a manner of matching. Bodies are built from words, characters
of a class, sequences, ordered choices, optional and repeated parts, a look ahead that forbids, and
calls of rules. Between the elements of a sequence and the rounds of a repetition, blanks are passed
over, except within rules that match character by character.
-/

namespace LuaSnippet.Peg

/-- What a rule matches. -/
inductive Pattern (R : Type) where
  /-- Exactly these characters. -/
  | word (w : List Char)
  /-- One character with a property. -/
  | char (p : Char → Bool)
  /-- The end of the text. -/
  | finish
  /-- One part and then the other. -/
  | seq (a b : Pattern R)
  /-- The first part, or else the second. -/
  | alt (a b : Pattern R)
  /-- The part, if it is there. -/
  | opt (a : Pattern R)
  /-- The part, as often as it is there. -/
  | many (a : Pattern R)
  /-- Further rounds of a repetition, each after the blanks before it. -/
  | further (a : Pattern R)
  /-- Nothing, provided that the part does not follow. -/
  | forbid (a : Pattern R)
  /-- Whatever a rule matches. -/
  | call (r : R)

namespace Pattern

variable {R : Type}

def lit (s : String) : Pattern R := .word s.toList

def inOrder : Pattern R → List (Pattern R) → Pattern R
  | a, [] => a
  | a, b :: rest => .seq a (inOrder b rest)

def firstOf : Pattern R → List (Pattern R) → Pattern R
  | a, [] => a
  | a, b :: rest => .alt a (firstOf b rest)

/-- The part at least once. -/
def repeated (a : Pattern R) : Pattern R := .seq a (.many a)

/-- The number of parts a pattern is built from. -/
def size : Pattern R → Nat
  | .word _ | .char _ | .finish | .call _ => 1
  | .seq a b | .alt a b => a.size + b.size + 1
  | .opt a | .further a | .forbid a => a.size + 1
  | .many a => a.size + 2

end Pattern

/-- How a rule matches. -/
inductive Manner where
  /-- Blanks may stand between its parts. -/
  | normal
  /-- Character by character; what it calls leaves no trace. -/
  | atomic
  /-- Character by character, while the rules it calls still appear in the tree. -/
  | compound
  /-- It stands for its body and never appears itself. -/
  | silent
deriving DecidableEq, Repr

/-- A grammar: its rules in their order, their bodies, and what counts as blank. -/
structure Grammar (R : Type) where
  rules : List R
  manner : R → Manner
  body : R → Pattern R
  skip : Cursor → Cursor

/-- A bound on the depth of calls within which nothing is read: no rule is entered twice at one
place, so it is enough to count the parts of all bodies. -/
def Grammar.depth {R : Type} (g : Grammar R) : Nat :=
  g.rules.foldr (fun r n => (g.body r).size + 1 + n) 1

end LuaSnippet.Peg
