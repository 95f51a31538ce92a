import LuaSnippet.Proofs.Lua.Printed

/-!
# The strings of a Lua tree

A Lua tree has strings in two places: string literals, and keys that are no names. They are listed in
the order of the text of the tree, to be compared with the string literals among its tokens.
-/

namespace LuaSnippet.Lua

/-! ### Strings of a tree -/

/-- A key as a string, unless it is written as a name. -/
def quotedKey (key : String) : List String :=
  if isName key then [] else [key]

mutual

/-- The strings of an expression, in the order of its text. -/
def exprStrings : Expr → List String
  | .string value => [value]
  | .number _ | .bool _ | .nil | .name _ | .builtin _ | .dots => []
  | .table fields => fieldsStrings fields
  | .call callee args => exprStrings callee ++ exprsStrings args
  | .member owner key => exprStrings owner ++ quotedKey key
  | .paren inner => exprStrings inner
  | .unary _ operand => exprStrings operand
  | .binary _ lhs rhs => exprStrings lhs ++ exprStrings rhs
  | .lambda _ _ value => exprStrings value
  | .function _ body => stmtsStrings body

def exprsStrings : List Expr → List String
  | [] => []
  | e :: rest => exprStrings e ++ exprsStrings rest

def fieldStrings : Field → List String
  | .item value => exprStrings value
  | .entry key value => quotedKey key ++ exprStrings value

def fieldsStrings : List Field → List String
  | [] => []
  | f :: rest => fieldStrings f ++ fieldsStrings rest

def optionStrings : Option Expr → List String
  | none => []
  | some e => exprStrings e

def stmtStrings : Stmt → List String
  | .declare _ value => optionStrings value
  | .function _ _ body => stmtsStrings body
  | .assign target value => exprStrings target ++ exprStrings value
  | .call value | .discard value => exprStrings value
  | .result value => optionStrings value
  | .block body => stmtsStrings body
  | .cond test body rest => exprStrings test ++ (stmtsStrings body ++ elseStrings rest)
  | .forIn _ iterator body => exprStrings iterator ++ stmtsStrings body

def elseStrings : Else → List String
  | .done => []
  | .otherwise body => stmtsStrings body
  | .elseIf test body rest => exprStrings test ++ (stmtsStrings body ++ elseStrings rest)

def stmtsStrings : List Stmt → List String
  | [] => []
  | s :: rest => stmtStrings s ++ stmtsStrings rest

end

theorem stmtsStrings_append (xs ys : List Stmt) :
    stmtsStrings (xs ++ ys) = stmtsStrings xs ++ stmtsStrings ys := by
  induction xs with
  | nil => rfl
  | cons s xs ih => rw [List.cons_append, stmtsStrings, ih, stmtsStrings, List.append_assoc]

/-! ### String literals of groups -/

/-- Whether a token is a string literal. -/
def Token.isText (t : Token) : Bool :=
  match t.kind with
  | .text _ => true
  | _ => false

/-- The string literals among the tokens of some groups. -/
def textsOf (gs : List Group) : List Token :=
  (tokensOf gs).filter Token.isText

def literals (values : List String) : List Token :=
  values.map Token.text

end LuaSnippet.Lua
