import LuaSnippet.Proofs.Grouping
import LuaSnippet.Proofs.Lua.Group

/-!
# The operators of a Lua text

How the operators of a Lua expression are read off its text. Operands stand between the operators: a
name, a literal, a table or a function, each with the calls, members and indexes behind it, is one
operand, and a text in parentheses stands for the operators within. The levels of the operators say
how they group (`operatorRows`); signs before an operand bind tighter than all of them.

`operators?` reads a text to a tree of operators. What it takes for the tree of a line is the one
grouped tree that reads as this line (`OpTree.read?_eq_some_iff`).
-/

namespace LuaSnippet.Lua

/-- Operators and operands as they are written. -/
abbrev OperatorTree := OpTree String String Empty String

/-- The signs between two operands, by their levels; the weakest come first. -/
def operatorRows : List (List String) :=
  [["or"], ["and"], ["==", "~=", "<", "<=", ">", ">="], ["|"], ["~"], ["&"], ["<<", ">>"], [".."],
    ["+", "-"], ["*", "/", "%"]]

def operatorLevel (sign : String) : Nat :=
  operatorRows.findIdx (·.contains sign)

/-- The levels of Lua: all of them group from the left but that of the concatenation. -/
def operatorLevels : Levels String where
  level := operatorLevel
  fromRight b := operatorLevel b = operatorLevel ".."
  uniform b b' h := by rw [h]

def operandSigns : List String := ["not", "-", "~"]

/-- A group, and the operators within if it is a text in parentheses. -/
structure Part where
  group : Group
  inner : Option OperatorTree

namespace Part

def text (p : Part) : String :=
  String.ofList (charsOf [p.group])

/-- A part as a sign, if it is a single token that might be one. -/
def sign? (p : Part) : Option String :=
  match p.group with
  | .token t => if t.kind = .word ∨ t.kind = .sign then some (String.ofList t.chars) else none
  | .bracket _ _ _ => none

/-- The sign before an operand that a part is. -/
def before? (p : Part) : Option String :=
  p.sign?.filter operandSigns.contains

def between? (p : Part) : Option String :=
  p.sign?.filter fun s => operatorRows.any (·.contains s)

def isPlainWord (p : Part) : Bool :=
  match p.group with
  | .token t => t.kind = .word && !keywords.contains (String.ofList t.chars)
  | .bracket _ _ _ => false

def startsOperand (p : Part) : Bool :=
  match p.group with
  | .token t =>
    p.isPlainWord || t.kind = .text .closed || t = Token.sign ['.', '.', '.'] ||
      ["nil", "true", "false"].any fun w => t = Token.word w.toList
  | .bracket o _ _ =>
    o = Token.sign ['('] || o = Token.sign ['\x7b'] || o = Token.word "function".toList

/-- Whether an operand may go on with a part: the arguments of a call, or an index. -/
def continuesOperand (p : Part) : Bool :=
  match p.group with
  | .token t => t.kind = .text .closed
  | .bracket o _ _ => o = Token.sign ['('] || o = Token.sign ['['] || o = Token.sign ['\x7b']

def isPoint (p : Part) : Bool :=
  match p.group with
  | .token t => t = Token.sign ['.']
  | .bracket _ _ _ => false

def isParenthesis (p : Part) : Bool :=
  match p.group with
  | .token _ => false
  | .bracket o _ _ => o = Token.sign ['(']

end Part

/-- A line of operators with parts of operands. -/
abbrev PartItem := OpItem Part String Part String

/-- A tree of operators with parts of operands. -/
abbrev PartTree := OpTree Part String Part String

/-- Where a reader of a line is: before an operand, behind one, or behind a point. -/
inductive Place where
  | before
  | behind
  | point
deriving DecidableEq, Repr

def lineOf : Place → List Part → Option (List PartItem)
  | .behind, [] => some []
  | .before, [] | .point, [] => none
  | .before, p :: rest =>
    match p.before? with
    | some s => (lineOf .before rest).map (.sign s :: ·)
    | none => if p.startsOperand then (lineOf .behind rest).map (.leaf p :: ·) else none
  | .behind, p :: rest =>
    match p.between? with
    | some b => (lineOf .before rest).map (.between b :: ·)
    | none =>
      if p.isPoint then (lineOf .point rest).map (.suffix p :: ·)
      else if p.continuesOperand then (lineOf .behind rest).map (.suffix p :: ·)
      else none
  | .point, p :: rest =>
    if p.isPlainWord then (lineOf .behind rest).map (.suffix p :: ·) else none

def operandText : PartTree → String
  | .leaf p => p.text
  | .suffix t p => operandText t ++ p.text
  | .sign _ t => operandText t
  | .binary _ l r => operandText l ++ operandText r

/-- A tree with its operands as they are written, and with the operators within parentheses. -/
def resolve : PartTree → Option OperatorTree
  | .leaf p => if p.isParenthesis then p.inner else some (.leaf p.text)
  | .suffix t p => some (.leaf (operandText t ++ p.text))
  | .sign s t => (resolve t).map (.sign s)
  | .binary b l r => (resolve l).bind fun l => (resolve r).map fun r => .binary b l r

def treeOf (ps : List Part) : Option OperatorTree :=
  (lineOf .before ps).bind fun line => (OpTree.read? operatorLevels line).bind resolve

def Group.isBlank : Group → Bool
  | .token t => t.kind = .blank
  | .bracket _ _ _ => false

mutual

/-- The operators within a text in parentheses. -/
def Group.inner? : Group → Option OperatorTree
  | .token _ => none
  | .bracket o inside _ => if o = Token.sign ['('] then treeOf (partsOf inside) else none

/-- The parts of some groups; white space between them does not count. -/
def partsOf : List Group → List Part
  | [] => []
  | g :: gs => if g.isBlank then partsOf gs else ⟨g, g.inner?⟩ :: partsOf gs

end

/-- The operators of a text. -/
def operators? (text : String) : Option OperatorTree :=
  (tokens? text.toList).bind fun ts => (groups? ts).bind fun gs => treeOf (partsOf gs)

end LuaSnippet.Lua
