import LuaSnippet.Proofs.Lua.Locals

/-!
# Builtins in Lua

A builtin is written as a name of the runtime library, and Lua looks that name up like any other: a
local of the same name that is in force where the builtin stands captures it. The one builtin that is
no library name is the element of a loop, which is a local of its own loop.
-/

namespace LuaSnippet.Lua

/-- The name that a builtin is looked up by: its text, up to the first dot. -/
def Builtin.root (b : Builtin) : String :=
  String.ofList (b.text.toList.takeWhile (· ≠ '.'))

/-- A builtin that is needed, with the locals that are in force there. -/
structure Need where
  builtin : Builtin
  locals : List String
deriving DecidableEq, Repr

namespace Need

/-- Whether a builtin is captured: a local has the name of the library function, or the nearest
locals are not those of the loop whose element is meant. -/
def isCaptured (n : Need) : Bool :=
  match n.builtin with
  | .loopValue => !(["____", Builtin.loopValue.text].isPrefixOf n.locals)
  | b => n.locals.contains b.root

end Need

mutual

/-- The builtins that an expression needs, in order. -/
def exprNeeds (locals : List String) : Expr → List Need
  | .number _ | .string _ | .bool _ | .nil | .name _ | .dots => []
  | .builtin b => [⟨b, locals⟩]
  | .table fields => fieldsNeeds locals fields
  | .call callee args => exprNeeds locals callee ++ exprsNeeds locals args
  | .member owner _ => exprNeeds locals owner
  | .paren inner => exprNeeds locals inner
  | .unary _ operand => exprNeeds locals operand
  | .binary _ lhs rhs => exprNeeds locals lhs ++ exprNeeds locals rhs
  | .lambda params packed value => exprNeeds (packed.toList ++ paramNames params ++ locals) value
  | .function params body => stmtsNeeds (paramNames params ++ locals) body

def exprsNeeds (locals : List String) : List Expr → List Need
  | [] => []
  | e :: rest => exprNeeds locals e ++ exprsNeeds locals rest

def fieldNeeds (locals : List String) : Field → List Need
  | .item value => exprNeeds locals value
  | .entry _ value => exprNeeds locals value

def fieldsNeeds (locals : List String) : List Field → List Need
  | [] => []
  | f :: rest => fieldNeeds locals f ++ fieldsNeeds locals rest

def optionNeeds (locals : List String) : Option Expr → List Need
  | none => []
  | some e => exprNeeds locals e

def stmtNeeds (locals : List String) : Stmt → List Need
  | .declare _ value => optionNeeds locals value
  | .function name params body => stmtsNeeds (paramNames params ++ name :: locals) body
  | .assign target value => exprNeeds locals target ++ exprNeeds locals value
  | .call value => exprNeeds locals value
  | .discard value => exprNeeds locals value
  | .result value => optionNeeds locals value
  | .block body => stmtsNeeds locals body
  | .cond test body rest =>
    exprNeeds locals test ++ stmtsNeeds locals body ++ elseNeeds locals rest
  | .forIn names iterator body => exprNeeds locals iterator ++ stmtsNeeds (names ++ locals) body

/-- The builtins that a conditional needs behind a branch. -/
def elseNeeds (locals : List String) : Else → List Need
  | .done => []
  | .otherwise body => stmtsNeeds locals body
  | .elseIf test body rest =>
    exprNeeds locals test ++ stmtsNeeds locals body ++ elseNeeds locals rest

/-- The builtins that several statements need, each behind those before it. -/
def stmtsNeeds (locals : List String) : List Stmt → List Need
  | [] => []
  | s :: rest => stmtNeeds locals s ++ stmtsNeeds (s.behind locals) rest

end

end LuaSnippet.Lua
