import LuaSnippet.Inspect.Walk

/-!
# Sites of a script

The way to a site of a script leads into the constructs around it, and past the statements that stand
before it in their lists. What is bound at a site can be read off the way alone (`Way.bound`). Sites
are the names, members and calls of a script; they are listed from the first to the last, a member and
a call behind their parts.
-/

namespace LuaSnippet.Script

open Inspect (functionName? branchBody)

/-! ### Ways -/

/-- The way to a site of a script. -/
inductive Way where
  /-- Into the statements of a script. -/
  | file (body : List Stmt)
  /-- Into the value of an arrow function without braces. -/
  | arrow (w : Way) (params : List Param)
  /-- Into the body of an arrow function with braces. -/
  | closure (w : Way) (params : List Param) (body : List Stmt)
  /-- Into the body of a declared function. -/
  | function (w : Way) (name : Ident) (params : List Param) (body : List Stmt)
  /-- Into the body of a loop. -/
  | loop (w : Way) (binding : Binding) (body : Stmt)
  /-- Into the first branch of a conditional. -/
  | branch (w : Way) (s : Stmt)
  /-- Into the second branch of a conditional. -/
  | otherwise (w : Way) (s : Stmt)
  /-- Into a block among other statements. -/
  | block (w : Way) (body : List Stmt)
  /-- Past a statement, to those behind it. -/
  | past (w : Way) (s : Stmt)

/-- The names of the functions that are declared directly among some statements. -/
def functionNames (body : List Stmt) : List String :=
  (body.filterMap functionName?).map (·.name)

/-- The names that a variable statement introduces. -/
def variableNames : Stmt → List String
  | .bind _ binding _ _ => binding.names.map (·.name)
  | _ => []

def blockBody : Stmt → List Stmt
  | .block body _ => body
  | _ => []

namespace Way

/-- The names that are bound at the end of a way: the parameters of the functions around, the
functions among the statements of every list around, wherever they stand in it, the variables of the
statements passed, and the names of the loops around. -/
def bound : Way → List String
  | file body => functionNames body
  | arrow w params => params.map (·.name) ++ w.bound
  | closure w params body => params.map (·.name) ++ functionNames body ++ w.bound
  | function w _ params body => params.map (·.name) ++ functionNames body ++ w.bound
  | loop w binding body => binding.names.map (·.name) ++ functionNames (blockBody body) ++ w.bound
  | branch w s => functionNames (branchBody s) ++ w.bound
  | otherwise w s => functionNames (branchBody s) ++ w.bound
  | block w body => functionNames body ++ w.bound
  | past w s => variableNames s ++ w.bound

/-- The way on into a statement of a list, if it is a block. -/
def toward (w : Way) : Stmt → Way
  | .block body _ => w.block body
  | _ => w

end Way

/-! ### Sites -/

/-- A name, a member or a call, with the way that leads to it. -/
structure Site where
  expr : Expr
  way : Way

def Site.name? (p : Site) : Option Ident :=
  match p.expr with
  | .ident id => some id
  | _ => none

mutual

/-- The names, members and calls of an expression. -/
def exprSites (w : Way) : Expr → List Site
  | .number _ _ | .string _ _ | .bool _ _ | .absent _ => []
  | .ident id => [⟨.ident id, w⟩]
  | .array elements _ => argsSites w elements
  | .object fields _ => fieldsSites w fields
  | .call callee args span =>
    exprSites w callee ++ argsSites w args ++ [⟨.call callee args span, w⟩]
  | .member owner property => exprSites w owner ++ [⟨.member owner property, w⟩]
  | .nonNull inner => exprSites w inner
  | .paren inner _ => exprSites w inner
  | .unary _ operand _ => exprSites w operand
  | .binary _ lhs rhs => exprSites w lhs ++ exprSites w rhs
  | .arrow params value _ => exprSites (w.arrow params) value
  | .closure params body _ => stmtsSites (w.closure params body) body

/-- The names, members and calls of an argument. -/
def argSites (w : Way) : Arg → List Site
  | .plain value => exprSites w value
  | .spread value => exprSites w value

/-- The names, members and calls of some arguments. -/
def argsSites (w : Way) : List Arg → List Site
  | [] => []
  | a :: rest => argSites w a ++ argsSites w rest

/-- The names, members and calls of a field. -/
def fieldSites (w : Way) : Field → List Site
  | .mk _ value => exprSites w value

/-- The names, members and calls of some fields. -/
def fieldsSites (w : Way) : List Field → List Site
  | [] => []
  | f :: rest => fieldSites w f ++ fieldsSites w rest

/-- The names, members and calls of an expression that may be missing. -/
def optionSites (w : Way) : Option Expr → List Site
  | none => []
  | some e => exprSites w e

/-- The names, members and calls of a statement that the way leads into, if it is a block. -/
def innerSites (w : Way) : Stmt → List Site
  | .bind _ _ init _ => optionSites w init
  | .function name params body _ => stmtsSites (w.function name params body) body
  | .assign target value _ => exprSites w target ++ exprSites w value
  | .forOf binding iterable body _ =>
    exprSites w iterable ++ innerSites (w.loop binding body) body
  | .cond test whenTrue whenFalse _ =>
    exprSites w test ++ innerSites (w.branch whenTrue) whenTrue ++ elseSites w whenFalse
  | .result value _ => optionSites w value
  | .block body _ => stmtsSites w body
  | .expr e => exprSites w e
  | .declare _ _ | .typeOnly _ | .empty _ => []

/-- The names, members and calls of a second branch, if there is one. -/
def elseSites (w : Way) : Option Stmt → List Site
  | none => []
  | some s => innerSites (w.otherwise s) s

/-- The names, members and calls of some statements. -/
def stmtsSites (w : Way) : List Stmt → List Site
  | [] => []
  | s :: rest => innerSites (w.toward s) s ++ stmtsSites (w.past s) rest

end

/-- The names, members and calls of a script. -/
def sites (body : List Stmt) : List Site :=
  stmtsSites (.file body) body

/-- The names at some sites, each with the way that leads to it. -/
def namesAt (ps : List Site) : List (Ident × Way) :=
  ps.filterMap fun p => p.name?.map fun id => (id, p.way)

theorem namesAt_cons (p : Site) (ps : List Site) :
    namesAt (p :: ps) = (p.name?.map fun id => (id, p.way)).toList ++ namesAt ps := by
  rw [namesAt, List.filterMap_cons]
  cases p.name? <;> rfl

theorem namesAt_append (ps qs : List Site) : namesAt (ps ++ qs) = namesAt ps ++ namesAt qs :=
  List.filterMap_append

/-- The names of a script, each with the way that leads to it. -/
def nameSites (body : List Stmt) : List (Ident × Way) :=
  namesAt (sites body)

end LuaSnippet.Script
