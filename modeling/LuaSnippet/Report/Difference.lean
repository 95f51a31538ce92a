import LuaSnippet.Text.Blank

/-!
# Differences between texts

Two texts are compared line by line: a list of lines that both have in the same order is found, and
everything else is what one of them has and the other does not. The list is the one that a walk from
the ends over a table of lengths comes to. The table is kept as one row after the other, so that the
cell before the first of a row is the last of the row above. In the first column the walk takes that
cell for the one to the left, and if it is larger than the one above, the walk leaves the table there,
though further up there may be lines that both texts have. So the list is not always a longest one: of
`p`, `q`, `y`, `q` and `p`, `q` it is only `q`.
-/

namespace LuaSnippet.Report

/-- A part of a comparison: lines that both texts have, or only the first, or only the second. -/
inductive Change where
  | same (text : String)
  | removed (text : String)
  | added (text : String)
deriving DecidableEq, Repr

namespace Change

/-- The row of the table for a line: for each line of the second text the length of a longest common
list up to there, from the row above it, the cell above to the left, and the cell to the left. -/
def row (x : String) (diagonal left : Nat) : List String → List Nat → List Nat
  | y :: ys, up :: ups =>
    let cell := if x = y then diagonal + 1 else max left up
    cell :: row x up cell ys ups
  | _, _ => []

def rows (b : List String) (above : List Nat) : List String → List (List Nat)
  | [] => []
  | x :: xs =>
    let r := row x 0 0 b above
    r :: rows b r xs

def table (a b : List String) : Array Nat :=
  (rows b (b.map fun _ => 0) a).flatten.toArray

/-- Walks back over the first `i` lines of one text and the first `j` of the other, in front of the
common lines found so far. -/
def walk (a b : Array String) (t : Array Nat) (i j : Nat) (found : List String) : List String :=
  match i, j with
  | 0, _ => found
  | _ + 1, 0 => found
  | i + 1, j + 1 =>
    let x := a.getD i ""
    if x = b.getD j "" then walk a b t i j (x :: found)
    else if i = 0 && j = 0 then found
    else if i = 0 || t.getD (i * b.size + j - 1) 0 > t.getD ((i - 1) * b.size + j) 0 then
      walk a b t (i + 1) j found
    else walk a b t i (j + 1) found
termination_by i + j

def common (a b : List String) : List String :=
  walk a.toArray b.toArray (table a b) a.length b.length []

/-- The lines of a text that is put together from lines; the empty text has none. -/
def items (s : String) : List String :=
  if s = "" then [] else Text.splitLines s

/-- How many lines at the start of three lists are the same. -/
def sameCount : List String → List String → List String → Nat
  | x :: xs, y :: ys, z :: zs => if x = y ∧ y = z then sameCount xs ys zs + 1 else 0
  | _, _, _ => 0

/-- How many lines stand before the next common one. -/
def countBefore (common : List String) (lines : List String) : Nat :=
  match common with
  | [] => lines.length
  | z :: _ => (lines.takeWhile (· ≠ z)).length

def part (f : String → Change) (lines : List String) : List Change :=
  match lines with
  | [] => []
  | _ :: _ => [f (Text.join "\n" lines)]

/-- Cuts two lists of lines along their common lines, in at most `fuel` rounds. -/
def cut : Nat → List String → List String → List String → List Change
  | 0, _, _, _ => []
  | fuel + 1, a, b, c =>
    if a = [] ∧ b = [] then []
    else
      let n := sameCount a b c
      let (a', b', c') := (a.drop n, b.drop n, c.drop n)
      let r := countBefore c' a'
      let s := countBefore c' b'
      part .same (a.take n) ++ part .removed (a'.take r) ++ part .added (b'.take s) ++
        cut fuel (a'.drop r) (b'.drop s) c'

/-- The comparison of two texts. -/
def between (expected actual : String) : List Change :=
  let lines := Text.join "\n" (common (Text.splitLines expected) (Text.splitLines actual))
  let (a, b) := (items expected, items actual)
  cut (a.length + b.length + 1) a b (items lines)

end Change

end LuaSnippet.Report
