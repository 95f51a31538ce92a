import LuaSnippet.Lowering.Operator
import LuaSnippet.Lua.Name
import LuaSnippet.Globals.Overload

/-!
# Lowering scripts to Lua

A script is lowered statement by statement. A call of a declared function that gives several values
is collected into a table where one value is needed, and is left as it is where all of them are. What
a name stands for depends on the local names around it, so lowering goes along with the scopes: a
statement hands the names it declares to the statements behind it.
-/

namespace LuaSnippet.Lowering

open Script (UnaryOp Expr Arg Field Stmt Param Binding Signature)

/-- What lowering depends on beside the script. -/
structure Setting where
  dialect : Dialect
  globals : Globals.Table

/-- The local names around a place, the innermost scope first. -/
abbrev Scopes := List (List String)

namespace Scopes

def binds (ss : Scopes) (name : String) : Bool :=
  ss.any (·.contains name)

def declare (ss : Scopes) (name : String) : Scopes :=
  match ss with
  | [] => []
  | s :: outer => (name :: s) :: outer

def declareAll (ss : Scopes) (names : List String) : Scopes :=
  names.foldl declare ss

end Scopes

def paramNames (params : List Param) : List String :=
  params.map (·.name)

def bindingNames (b : Binding) : List String :=
  b.names.map (·.name)

/-! ### Calls and their values -/

/-- The overload that a call takes, if the expression is a call of a declared function. -/
def signature? (st : Setting) (ss : Scopes) (e : Expr) : Option Signature :=
  match e.bare with
  | .call callee args _ =>
    (Globals.overloads? st.globals ss.binds callee).bind fun overloads =>
      match Globals.select overloads args with
      | .ok found => some found.2
      | .error _ => none
  | _ => none

/-- Whether an expression is a call that gives several values. -/
def isMulti (st : Setting) (ss : Scopes) (e : Expr) : Bool :=
  ((signature? st ss e).map (·.isMulti)).getD false

/-- Whether an expression is a call that gives an iterator. -/
def isIterable (st : Setting) (ss : Scopes) (e : Expr) : Bool :=
  ((signature? st ss e).map (·.isIterable)).getD false

/-- The function that gives the values of a table. -/
def unpackBuiltin : Dialect → Lua.Builtin
  | .lua51 | .luaJit => .unpack
  | .lua52 | .lua53 => .tableUnpack

def unpack (d : Dialect) (e : Lua.Expr) : Lua.Expr :=
  .call (.builtin (unpackBuiltin d)) [e]

/-- One value: several values are collected into a table. -/
def collectIf (multi : Bool) (e : Lua.Expr) : Lua.Expr :=
  if multi then .table [.item e] else e

/-- All values: those of a table, unless there are several values already. -/
def spreadUnless (d : Dialect) (multi : Bool) (e : Lua.Expr) : Lua.Expr :=
  if multi then e else unpack d e

/-! ### Functions and places -/

def lowerParam (p : Param) : Lua.Param :=
  if p.isRest then .dots else .name (Lua.nameOf p.name)

def restName? (params : List Param) : Option String :=
  (params.find? fun p => p.isRest).map fun p => Lua.nameOf p.name

/-- The statement that packs the further arguments of a function. -/
def packRest (params : List Param) : List Lua.Stmt :=
  match restName? params with
  | some name => [.declare [name] (some (.table [.item .dots]))]
  | none => []

/-- Whether an expression is grouped before it is called. -/
def groupsAsCallee (e : Expr) : Bool :=
  match e.bare with
  | .arrow _ _ _ | .closure _ _ _ | .object _ _ | .array _ _ | .string _ _ => true
  | _ => false

/-- Whether an expression is a call, in groups or not. -/
def isCall (e : Expr) : Bool :=
  match e.bare with
  | .call _ _ _ => true
  | _ => false

def isBlock : Stmt → Bool
  | .block _ _ => true
  | _ => false

def isPattern : Binding → Bool
  | .pattern _ => true
  | .single _ => false

/-- The names of a loop over a table, and what its body starts with: a pattern is taken from the
element that the loop is at. -/
def loopHead (d : Dialect) (b : Binding) : List String × List Lua.Stmt :=
  let names := (bindingNames b).map Lua.nameOf
  if isPattern b then
    (["____", Lua.Builtin.loopValue.text],
      [.declare names (some (unpack d (.builtin .loopValue)))])
  else ("____" :: names, [])

def loop (st : Setting) (b : Binding) (iterable : Bool) (e : Lua.Expr) (body : List Lua.Stmt) :
    Lua.Stmt :=
  if iterable then .forIn ((bindingNames b).map Lua.nameOf) e body
  else
    let head := loopHead st.dialect b
    .forIn head.1 (.call (.builtin .ipairs) [e]) (head.2 ++ body)

def declareWith (st : Setting) (ss : Scopes) (b : Binding) (init : Expr) (e : Lua.Expr) :
    Lua.Stmt :=
  let multi := isMulti st ss init
  .declare ((bindingNames b).map Lua.nameOf)
    (some (if isPattern b then spreadUnless st.dialect multi e else collectIf multi e))

/-- The lowered form of a unary operation on a lowered operand, which may be grouped for it. -/
def lowerUnary (d : Dialect) (op : UnaryOp) (group : Bool) (e : Lua.Expr) : Lua.Expr :=
  match op with
  | .not => .unary .not (groupIf group e)
  | .neg => negate (groupIf group e)
  | .bitNot => match bitLibrary? d with
    | some lib => .call (.builtin (lib .bnot)) [e]
    | none => .unary .bnot (groupIf group e)

/-- The lowered form of a binary operation on lowered operands. -/
def lowerBinary (d : Dialect) (op : Script.BinaryOp) (lhs rhs : Expr) (l r : Lua.Expr) : Lua.Expr :=
  match bitCall? d op with
  | some f => .call (.builtin f) [l, r]
  | none =>
    let op' := binOp op lhs rhs
    .binary op' (groupIf (needsGroup d lhs op'.level op'.fromRight) l)
      (groupIf (needsGroup d rhs op'.level !op'.fromRight) r)

mutual

/-- The lowered form of an expression. -/
def lowerExpr (st : Setting) (ss : Scopes) : Expr → Lua.Expr
  | .number text _ => .number text
  | .string value _ => .string value
  | .bool value _ => .bool value
  | .absent _ => .nil
  | .ident id => .name (Lua.nameOf id.name)
  | .array elements _ => .table (lowerItems st ss elements)
  | .object fields _ => .table (lowerFields st ss fields)
  | .call callee args _ =>
    .call (groupIf (groupsAsCallee callee) (lowerExpr st ss callee)) (lowerArgs st ss args)
  | .member owner property =>
    .member (groupIf (groupsAsCallee owner) (lowerExpr st ss owner)) property.name
  | .nonNull inner => lowerExpr st ss inner
  | .paren inner _ => .paren (lowerExpr st ss inner)
  | .unary op operand _ =>
    lowerUnary st.dialect op (needsGroup st.dialect operand Lua.unaryLevel false)
      (lowerExpr st ss operand)
  | .binary op lhs rhs =>
    lowerBinary st.dialect op lhs rhs (lowerExpr st ss lhs) (lowerExpr st ss rhs)
  | .arrow params value _ =>
    .lambda (params.map lowerParam) (restName? params)
      (lowerExpr st (paramNames params :: ss) value)
  | .closure params body _ =>
    .function (params.map lowerParam)
      (packRest params ++ lowerStmts st (paramNames params :: ss) body)

/-- The lowered form of an argument: all elements of a spread one, one value of another. -/
def lowerArg (st : Setting) (ss : Scopes) : Arg → Lua.Expr
  | .plain value => collectIf (isMulti st ss value) (lowerExpr st ss value)
  | .spread value => spreadUnless st.dialect (isMulti st ss value) (lowerExpr st ss value)

/-- The lowered forms of some arguments. -/
def lowerArgs (st : Setting) (ss : Scopes) : List Arg → List Lua.Expr
  | [] => []
  | a :: rest => lowerArg st ss a :: lowerArgs st ss rest

def lowerItems (st : Setting) (ss : Scopes) : List Arg → List Lua.Field
  | [] => []
  | a :: rest => .item (lowerArg st ss a) :: lowerItems st ss rest

def lowerField (st : Setting) (ss : Scopes) : Field → Lua.Field
  | .mk key value => .entry key (collectIf (isMulti st ss value) (lowerExpr st ss value))

def lowerFields (st : Setting) (ss : Scopes) : List Field → List Lua.Field
  | [] => []
  | f :: rest => lowerField st ss f :: lowerFields st ss rest

/-- The lowered form of a statement within scopes that are open for it, and the scopes behind it. Of
a block it is the form of its statements, so that a branch is lowered alike with and without
braces. -/
def lowerInner (st : Setting) (ss : Scopes) : Stmt → List Lua.Stmt × Scopes
  | .bind _ binding none _ =>
    ([.declare ((bindingNames binding).map Lua.nameOf) none],
      ss.declareAll (bindingNames binding))
  | .bind _ binding (some init) _ =>
    ([declareWith st ss binding init (lowerExpr st ss init)], ss.declareAll (bindingNames binding))
  | .function name params body _ =>
    let inner := ss.declare name.name
    ([.function (Lua.nameOf name.name) (params.map lowerParam)
      (packRest params ++ lowerStmts st (paramNames params :: inner) body)], inner)
  | .assign target value _ =>
    ([.assign (lowerExpr st ss target) (collectIf (isMulti st ss value) (lowerExpr st ss value))],
      ss)
  | .forOf binding iterable body _ =>
    ([loop st binding (isIterable st ss iterable) (lowerExpr st ss iterable)
      (lowerInner st ([] :: Scopes.declareAll ([] :: ss) (bindingNames binding)) body).1], ss)
  | .cond test whenTrue whenFalse _ =>
    ([.cond (lowerExpr st ss test) (lowerInner st ([] :: ss) whenTrue).1
      (lowerElse st ss whenFalse)], ss)
  | .result none _ => ([.result none], ss)
  | .result (some value) _ => ([.result (some (lowerExpr st ss value))], ss)
  | .block body _ => (lowerStmts st ss body, ss)
  | .expr e =>
    ([if isCall e then .call (lowerExpr st ss e) else .discard (lowerExpr st ss e)], ss)
  | .declare _ _ | .typeOnly _ | .empty _ => ([], ss)

/-- How a conditional goes on behind its first branch. -/
def lowerElse (st : Setting) (ss : Scopes) : Option Stmt → Lua.Else
  | none => .done
  | some (.cond test whenTrue whenFalse _) =>
    .elseIf (lowerExpr st ss test) (lowerInner st ([] :: ss) whenTrue).1
      (lowerElse st ss whenFalse)
  | some s => .otherwise (lowerInner st ([] :: ss) s).1

/-- The lowered forms of some statements, each with the names that those before it declare. -/
def lowerStmts (st : Setting) (ss : Scopes) : List Stmt → List Lua.Stmt
  | [] => []
  | s :: rest =>
    let first :=
      if isBlock s then ([.block (lowerInner st ([] :: ss) s).1], ss) else lowerInner st ss s
    first.1 ++ lowerStmts st first.2 rest

end

/-- The lowered form of a statement, and the scopes behind it. -/
def lowerStmt (st : Setting) (ss : Scopes) (s : Stmt) : List Lua.Stmt × Scopes :=
  if isBlock s then ([.block (lowerInner st ([] :: ss) s).1], ss) else lowerInner st ss s

theorem lowerStmts_cons (st : Setting) (ss : Scopes) (s : Stmt) (rest : List Stmt) :
    lowerStmts st ss (s :: rest) =
      (lowerStmt st ss s).1 ++ lowerStmts st (lowerStmt st ss s).2 rest := rfl

/-- The lowered form of a script. -/
def lower (st : Setting) (body : List Stmt) : List Lua.Stmt :=
  lowerStmts st [[]] body

end LuaSnippet.Lowering
