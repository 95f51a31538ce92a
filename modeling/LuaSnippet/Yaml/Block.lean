import LuaSnippet.Yaml.Mark

/-!
# Block scalars

A scalar whose text stands on the lines behind its sign, further in than what is around it. Behind
`|` every line end stays; behind `>` a single line end between two lines that start at the margin is
a space. The line end behind the last line is kept, dropped, or kept with all empty lines behind it.
-/

namespace LuaSnippet.Yaml.Block

/-- What becomes of the line ends behind the last line. -/
inductive Ending where
  | clip
  | strip
  | keep
deriving DecidableEq, Repr

/-- What stands behind the sign of a block scalar. -/
structure Header where
  ending : Ending
  /-- How much further in the text is, if that is said. -/
  step : Option Nat
deriving DecidableEq, Repr

def ending? (c : Char) : Option Ending :=
  if c = '+' then some .keep else if c = '-' then some .strip else none

def step? (c : Char) : Option Nat :=
  if c.isDigit && c ≠ '0' then some (c.toNat - 48) else none

/-- Reads the signs of a header: an ending and a step, in any order, each at most once. A zero can
stand nowhere in it. -/
def header : List Char → Header × List Char
  | [] => (⟨.clip, none⟩, [])
  | [a] => match ending? a, step? a with
    | some e, _ => (⟨e, none⟩, [])
    | none, some n => (⟨.clip, some n⟩, [])
    | none, none => (⟨.clip, none⟩, [a])
  | a :: b :: rest => match ending? a, step? a, ending? b, step? b with
    | some e, _, _, some n => (⟨e, some n⟩, rest)
    | some e, _, _, none => (⟨e, none⟩, b :: rest)
    | none, some n, some e, _ => (⟨e, some n⟩, rest)
    | none, some n, none, _ => (⟨.clip, some n⟩, b :: rest)
    | none, none, _, _ => (⟨.clip, none⟩, a :: b :: rest)

/-- Goes to the next line from behind a header, where only blanks and a comment can stand. -/
def nextLine (comment : Bool) (m : Mark) : List Char → Option (Mark × List Char)
  | [] => some (m, [])
  | c :: rest =>
    if isBreak c then some (m.after c, rest)
    else if comment then nextLine true (m.after c) rest
    else if isBlank c then nextLine false (m.after c) rest
    else if c = '#' then nextLine true (m.after c) rest
    else none

/-- The widest margin up to the first line with a text. A tab cannot stand in a margin. -/
def margin? (column widest : Nat) : List Char → Option Nat
  | [] => some (max widest column)
  | c :: rest =>
    if c = ' ' then margin? (column + 1) (max widest (column + 1)) rest
    else if c = '\t' then none
    else if isBreak c then margin? 0 (max widest column) rest
    else some (max widest column)

/-- The column at which the lines of a text start: `outer` columns are the least. -/
def indent? (outer base : Nat) (step : Option Nat) (cs : List Char) : Option Nat :=
  match step with
  | some n => some (base + n)
  | none => (margin? 0 0 cs).map fun w => max (max w outer) 1

/-- What is read so far. -/
structure Body where
  /-- The text, in reverse order. -/
  done : List Char
  /-- The line end behind the last line. -/
  last : List Char
  /-- The line ends behind that one, in reverse order. -/
  blank : List Char
  /-- Whether the last line starts with a blank. -/
  leading : Bool

namespace Body

/-- The text with its last line joined to a line that starts with `c`. -/
def join (literal : Bool) (b : Body) (c : Char) : Body :=
  let between :=
    if !literal && b.last = ['\n'] && !b.leading && !isBlank c then
      (if b.blank = [] then [' '] else [])
    else b.last
  ⟨b.blank ++ (between ++ b.done), [], [], isBlank c⟩

def text (b : Body) (e : Ending) : List Char :=
  (match e with
    | .strip => b.done
    | .clip => b.last ++ b.done
    | .keep => b.blank ++ (b.last ++ b.done)).reverse

end Body

/-- A body, and where reading goes on. -/
structure Result where
  body : Body
  mark : Mark
  rest : List Char

/-- Reads on; `inside` says whether the place is inside a line of the text. -/
def scan (literal : Bool) (indent : Nat) (inside : Bool) (b : Body) (m : Mark) :
    List Char → Option Result
  | [] => some ⟨b, m, []⟩
  | c :: rest =>
    if inside then
      if isBreak c then scan literal indent false { b with last := [c] } (m.after c) rest
      else scan literal indent true { b with done := c :: b.done } (m.after c) rest
    else if c = ' ' && m.column < indent then scan literal indent false b (m.after c) rest
    else if c = '\t' && m.column < indent then none
    else if isBreak c then
      scan literal indent false { b with blank := c :: b.blank } (m.after c) rest
    else if m.column = indent then
      let joined := b.join literal c
      scan literal indent true { joined with done := c :: joined.done } (m.after c) rest
    else some ⟨b, m, c :: rest⟩

/-- Reads a block scalar behind its sign; `around` is the column of the collection around it. -/
def read (literal : Bool) (around : Option Nat) (m : Mark) (cs : List Char) :
    Option (List Char × Mark × List Char) :=
  let (h, behind) := header cs
  (nextLine false (m.right (cs.length - behind.length)) behind).bind fun (m, rest) =>
    (indent? ((around.map (· + 1)).getD 0) (around.getD 0) h.step rest).bind fun indent =>
      (scan literal indent false ⟨[], [], [], false⟩ m rest).map fun r =>
        (r.body.text h.ending, r.mark, r.rest)

end LuaSnippet.Yaml.Block
