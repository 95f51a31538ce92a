import LuaSnippet.Yaml.Gap

/-!
# Quoted scalars

Between single quotes only the quote itself is special, and is written twice. Between double quotes
a backslash starts an escape: a letter for a special character, the number of a character, or a line
end that stands for nothing. Line ends are joined as in every scalar.
-/

namespace LuaSnippet.Yaml.Quoted

/-- A scalar that was read, and where reading goes on. -/
structure Result where
  text : List Char
  mark : Mark
  rest : List Char

/-- Reads on between single quotes, behind some text in reverse order and a gap. -/
def scanSingle (done : List Char) (g : Gap) (m : Mark) : List Char → Option Result
  | [] => none
  | '\'' :: '\'' :: rest => scanSingle ('\'' :: (g.text.reverse ++ done)) .none (m.right 2) rest
  | c :: rest =>
    if isBlank c || isBreak c then scanSingle done (g.push c) (m.after c) rest
    else if atFence m (c :: rest) then none
    else if c = '\'' then some ⟨(g.text.reverse ++ done).reverse, m.after c, rest⟩
    else scanSingle (c :: (g.text.reverse ++ done)) .none (m.after c) rest

def letters : List (Char × Char) := [
  ('0', '\x00'), ('a', '\x07'), ('b', '\x08'), ('t', '\t'), ('\t', '\t'), ('n', '\n'),
  ('v', '\x0b'), ('f', '\x0c'), ('r', '\r'), ('e', '\x1b'), (' ', ' '), ('"', '"'), ('/', '/'),
  ('\\', '\\'), ('N', '\x85'), ('_', '\xa0'), ('L', lineSeparator), ('P', paragraphSeparator)]

/-- How many digits the number of a character has behind a letter. -/
def digitCount? (c : Char) : Option Nat :=
  if c = 'x' then some 2 else if c = 'u' then some 4 else if c = 'U' then some 8 else none

/-- What the next character belongs to. -/
inductive Mode where
  | text
  /-- An escape, just behind its backslash. -/
  | escape
  /-- The number of a character: how many digits follow, and the value of those before. -/
  | number (left value : Nat)
deriving DecidableEq, Repr

def character? (n : Nat) : Option Char :=
  if h : n.isValidChar then some (Char.ofNatAux n h) else none

/-- Reads on between double quotes, behind some text in reverse order and a gap. -/
def scanDouble (mode : Mode) (done : List Char) (g : Gap) (m : Mark) :
    List Char → Option Result
  | [] => none
  | c :: rest =>
    match mode with
    | .text =>
      if isBlank c || isBreak c then scanDouble .text done (g.push c) (m.after c) rest
      else if atFence m (c :: rest) then none
      else if c = '"' then some ⟨(g.text.reverse ++ done).reverse, m.after c, rest⟩
      else if c = '\\' then scanDouble .escape (g.text.reverse ++ done) .none (m.after c) rest
      else scanDouble .text (c :: (g.text.reverse ++ done)) .none (m.after c) rest
    | .escape =>
      if isBreak c then scanDouble .text done (.lines [] []) (m.after c) rest
      else match letters.lookup c, digitCount? c with
        | some d, _ => scanDouble .text (d :: done) .none (m.after c) rest
        | none, some n => scanDouble (.number n 0) done .none (m.after c) rest
        | none, none => none
    | .number left value =>
      match digitValue? c with
      | none => none
      | some d =>
        let value := 16 * value + d
        if left ≤ 1 then
          match character? value with
          | some x => scanDouble .text (x :: done) .none (m.after c) rest
          | none => none
        else scanDouble (.number (left - 1) value) done .none (m.after c) rest

/-- Reads a scalar behind its first quote. -/
def read (double : Bool) (m : Mark) (cs : List Char) : Option Result :=
  if double then scanDouble .text [] .none m cs else scanSingle [] .none m cs

end LuaSnippet.Yaml.Quoted
