import LuaSnippet.Script.Rule.Body
import LuaSnippet.Script.Piece
import LuaSnippet.Text.Blank

/-!
# Reading scripts

A text is either a list of statements or it is refused with one reason: the furthest place that was
reached, and the rules that were wanted or unwanted there.
-/

namespace LuaSnippet.Script

open Peg (Attempts Outcome)

/-- Why a text is no script. -/
structure Refusal where
  offset : Nat
  wanted : List Rule
  unwanted : List Rule
deriving DecidableEq, Repr

namespace Refusal

/-- The reason that a record of attempts gives; each rule is named once, in the order of the rules. -/
def ofAttempts (log : Attempts Rule) : Refusal :=
  ⟨log.furthest, Rule.all.filter (log.wanted.contains ·), Rule.all.filter (log.unwanted.contains ·)⟩

def enumerate : List String → String
  | [] => ""
  | [a] => a
  | [a, b] => a ++ " or " ++ b
  | names => Text.join ", " names.dropLast ++ ", or " ++ names.getLast?.getD ""

def message (r : Refusal) : String :=
  let wanted := enumerate (r.wanted.map Rule.name)
  let unwanted := enumerate (r.unwanted.map Rule.name)
  match r.unwanted, r.wanted with
  | [], [] => "unknown parsing error"
  | [], _ => "expected " ++ wanted
  | _, [] => "unexpected " ++ unwanted
  | _, _ => "unexpected " ++ unwanted ++ "; expected " ++ wanted

end Refusal

def statementsOf (nodes : List (Peg.Node Rule)) : Option (List Stmt) :=
  match Piece.ofNodes nodes with
  | some [.block body _] => some body
  | _ => none

/-- Reads a text; there is no answer if matching does not end within its limit, or ends with nodes
that are no script. -/
def read? (text : String) : Option (Except Refusal (List Stmt)) :=
  match grammar.parse .program text.toList with
  | .matched nodes _ _ => (statementsOf nodes).map .ok
  | .failed log => some (.error (.ofAttempts log))
  | .unfinished => none

/-- Reads a text as a list of statements. -/
def read (text : String) : Except Refusal (List Stmt) :=
  (read? text).getD (.error ⟨0, [], []⟩)

end LuaSnippet.Script
