import LuaSnippet.Lua.Tree

/-!
# What holds the calls of a Lua tree

The calls of a Lua tree, other than those of builtins, are listed with what directly holds each of
them, groups aside. Where a call is the only item of a table, it is also told what holds the table.
-/

namespace LuaSnippet.Lua

/-- What directly holds an expression. -/
inductive Holder where
  /-- A declaration of variables. -/
  | declaration
  /-- The left side of an assignment. -/
  | target
  /-- The right side of an assignment. -/
  | assigned
  | test
  | iterator
  | result
  | statement
  | argument
  /-- A call of a builtin. -/
  | builtin
  /-- A table with the expression among several items. -/
  | item
  /-- A table with the expression as its only item, and what holds the table. -/
  | only (table : Holder)
  | entry
  | callee
  | owner
  | operand
deriving DecidableEq, Repr

def Holder.ofItems (table : Holder) (fields : List Field) : Holder :=
  if fields.length = 1 then .only table else .item

def Expr.isBuiltin : Expr → Bool
  | .builtin _ => true
  | _ => false

/-- A call with what holds it. -/
structure HeldCall where
  call : Expr
  holder : Holder

mutual

/-- The calls of an expression that is held by something, each behind its parts. -/
def exprHeld (h : Holder) : Expr → List HeldCall
  | .number _ | .string _ | .bool _ | .nil | .name _ | .builtin _ | .dots => []
  | .table fields => fieldsHeld (h.ofItems fields) fields
  | .call callee args =>
    exprHeld .callee callee ++
      if callee.isBuiltin then exprsHeld .builtin args
      else exprsHeld .argument args ++ [⟨.call callee args, h⟩]
  | .member owner _ => exprHeld .owner owner
  | .paren inner => exprHeld h inner
  | .unary _ operand => exprHeld .operand operand
  | .binary _ lhs rhs => exprHeld .operand lhs ++ exprHeld .operand rhs
  | .lambda _ _ value => exprHeld .result value
  | .function _ body => stmtsHeld body

def exprsHeld (h : Holder) : List Expr → List HeldCall
  | [] => []
  | e :: rest => exprHeld h e ++ exprsHeld h rest

/-- The calls of a field of a table whose items are held by something. -/
def fieldHeld (h : Holder) : Field → List HeldCall
  | .item value => exprHeld h value
  | .entry _ value => exprHeld .entry value

def fieldsHeld (h : Holder) : List Field → List HeldCall
  | [] => []
  | f :: rest => fieldHeld h f ++ fieldsHeld h rest

def optionHeld (h : Holder) : Option Expr → List HeldCall
  | none => []
  | some e => exprHeld h e

def stmtHeld : Stmt → List HeldCall
  | .declare _ value => optionHeld .declaration value
  | .function _ _ body => stmtsHeld body
  | .assign target value => exprHeld .target target ++ exprHeld .assigned value
  | .call value => exprHeld .statement value
  | .discard value => exprHeld .statement value
  | .result value => optionHeld .result value
  | .block body => stmtsHeld body
  | .cond test body rest => exprHeld .test test ++ stmtsHeld body ++ elseHeld rest
  | .forIn _ iterator body => exprHeld .iterator iterator ++ stmtsHeld body

def elseHeld : Else → List HeldCall
  | .done => []
  | .otherwise body => stmtsHeld body
  | .elseIf test body rest => exprHeld .test test ++ stmtsHeld body ++ elseHeld rest

/-- The calls of several statements. -/
def stmtsHeld : List Stmt → List HeldCall
  | [] => []
  | s :: rest => stmtHeld s ++ stmtsHeld rest

end

theorem stmtsHeld_append (xs ys : List Stmt) :
    stmtsHeld (xs ++ ys) = stmtsHeld xs ++ stmtsHeld ys := by
  induction xs with
  | nil => rfl
  | cons s xs ih => rw [List.cons_append, stmtsHeld, stmtsHeld, ih, List.append_assoc]

end LuaSnippet.Lua
