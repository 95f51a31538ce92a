import LuaSnippet.Lua.Tree

/-!
# Locals in Lua

Where a name of a Lua tree stands decides whether it is a local: a local is in force behind the
statement that declares it, up to the end of the block, and a local function in its own body too.
-/

namespace LuaSnippet.Lua

/-- A name that is read or written, with the locals that are in force there. -/
structure Use where
  name : String
  locals : List String
deriving DecidableEq, Repr

def paramNames (params : List Param) : List String :=
  params.filterMap fun
    | .name n => some n
    | .dots => none

def Stmt.behind (locals : List String) : Stmt → List String
  | .declare names _ => names ++ locals
  | .function name _ _ => name :: locals
  | .discard _ => "____" :: locals
  | _ => locals

mutual

/-- The names that an expression uses, in order. -/
def exprUses (locals : List String) : Expr → List Use
  | .number _ | .string _ | .bool _ | .nil | .builtin _ | .dots => []
  | .name n => [⟨n, locals⟩]
  | .table fields => fieldsUses locals fields
  | .call callee args => exprUses locals callee ++ exprsUses locals args
  | .member owner _ => exprUses locals owner
  | .paren inner => exprUses locals inner
  | .unary _ operand => exprUses locals operand
  | .binary _ lhs rhs => exprUses locals lhs ++ exprUses locals rhs
  | .lambda params packed value => exprUses (packed.toList ++ paramNames params ++ locals) value
  | .function params body => stmtsUses (paramNames params ++ locals) body

def exprsUses (locals : List String) : List Expr → List Use
  | [] => []
  | e :: rest => exprUses locals e ++ exprsUses locals rest

def fieldUses (locals : List String) : Field → List Use
  | .item value => exprUses locals value
  | .entry _ value => exprUses locals value

def fieldsUses (locals : List String) : List Field → List Use
  | [] => []
  | f :: rest => fieldUses locals f ++ fieldsUses locals rest

def optionUses (locals : List String) : Option Expr → List Use
  | none => []
  | some e => exprUses locals e

def stmtUses (locals : List String) : Stmt → List Use
  | .declare _ value => optionUses locals value
  | .function name params body => stmtsUses (paramNames params ++ name :: locals) body
  | .assign target value => exprUses locals target ++ exprUses locals value
  | .call value => exprUses locals value
  | .discard value => exprUses locals value
  | .result value => optionUses locals value
  | .block body => stmtsUses locals body
  | .cond test body rest =>
    exprUses locals test ++ stmtsUses locals body ++ elseUses locals rest
  | .forIn names iterator body => exprUses locals iterator ++ stmtsUses (names ++ locals) body

/-- The names that a conditional uses behind a branch. -/
def elseUses (locals : List String) : Else → List Use
  | .done => []
  | .otherwise body => stmtsUses locals body
  | .elseIf test body rest =>
    exprUses locals test ++ stmtsUses locals body ++ elseUses locals rest

/-- The names that several statements use, each behind those before it. -/
def stmtsUses (locals : List String) : List Stmt → List Use
  | [] => []
  | s :: rest => stmtUses locals s ++ stmtsUses (s.behind locals) rest

end

theorem stmtsUses_append (locals : List String) (xs ys : List Stmt) :
    stmtsUses locals (xs ++ ys) =
      stmtsUses locals xs ++ stmtsUses (xs.foldl Stmt.behind locals) ys := by
  induction xs generalizing locals with
  | nil => rfl
  | cons s xs ih =>
    rw [List.cons_append, stmtsUses, ih, List.foldl_cons, stmtsUses, List.append_assoc]

end LuaSnippet.Lua
