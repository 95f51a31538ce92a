import LuaSnippet.Inspect.Scope
import LuaSnippet.Globals.Overload

/-!
# Inspecting a script

A script is walked from its first statement to its last, with the local names at each place. Every
name that is read has to be local or global, a member of a global namespace has to be there, every
call of a declared function has to be accepted by one of its overloads, and no scope may declare a
block scoped name twice.
-/

namespace LuaSnippet.Inspect

open Script (Expr Arg Field Stmt File Ident)
open Globals (Table)

/-- What is wrong with the name of an expression, if it is one. -/
def nameFindings (t : Table) (ss : Scopes) (id : Ident) : List Finding :=
  if ss.binds id.name || (t.find? id.name).isSome then []
  else [⟨.unknownName id.name, id.span.start⟩]

/-- What is wrong with a member of a global namespace. -/
def memberFindings (t : Table) (ss : Scopes) (owner : Expr) (property : Ident) : List Finding :=
  match owner.bare with
  | .ident space =>
    if ss.binds space.name then []
    else match t.find? space.name with
      | some (.space members) =>
        if (Table.find? members property.name).isSome then []
        else [⟨.unknownProperty property.name space.name, property.span.start⟩]
      | _ => []
  | _ => []

/-- What is wrong with a call of a declared function. -/
def callFindings (t : Table) (ss : Scopes) (callee : Expr) (args : List Arg) (offset : Nat) :
    List Finding :=
  match Globals.overloads? t ss.binds callee with
  | none => []
  | some overloads => match Globals.select overloads args with
    | .ok _ => []
    | .error (.arity min max got) => [⟨.argumentCount min max got, offset⟩]
    | .error (.argument index argument parameter) =>
      match args[index]? with
      | some a => [⟨.argumentType argument parameter, a.value.span.start⟩]
      | none => []
    | .error .noOverload => [⟨.noOverload, offset⟩]

/-- The statements of a branch: those of a block, or the one statement that it is. -/
def branchBody : Stmt → List Stmt
  | .block body _ => body
  | s => [s]

/-- Opens the scope of a statement, if it is a block. -/
def openBlock (ss : Scopes) : Stmt → List Finding × Scopes
  | .block body _ => openScope ss [] body
  | _ => ([], ss)

def closeBlock (ss after : Scopes) : Stmt → Scopes
  | .block _ _ => ss
  | _ => after

mutual

def exprFindings (t : Table) (ss : Scopes) : Expr → List Finding
  | .number _ _ | .string _ _ | .bool _ _ | .absent _ => []
  | .ident id => nameFindings t ss id
  | .array elements _ => argsFindings t ss elements
  | .object fields _ => fieldsFindings t ss fields
  | .call callee args span =>
    exprFindings t ss callee ++ argsFindings t ss args ++ callFindings t ss callee args span.start
  | .member owner property => exprFindings t ss owner ++ memberFindings t ss owner property
  | .nonNull inner => exprFindings t ss inner
  | .paren inner _ => exprFindings t ss inner
  | .unary _ operand _ => exprFindings t ss operand
  | .binary _ lhs rhs => exprFindings t ss lhs ++ exprFindings t ss rhs
  | .arrow params value _ => exprFindings t (Scope.ofParams params :: ss) value
  | .closure params body _ =>
    let opened := openScope ss (Scope.ofParams params) body
    opened.1 ++ (stmtsWalk t opened.2 body).1

def argFindings (t : Table) (ss : Scopes) : Arg → List Finding
  | .plain value => exprFindings t ss value
  | .spread value => exprFindings t ss value

def argsFindings (t : Table) (ss : Scopes) : List Arg → List Finding
  | [] => []
  | a :: rest => argFindings t ss a ++ argsFindings t ss rest

def fieldFindings (t : Table) (ss : Scopes) : Field → List Finding
  | .mk _ value => exprFindings t ss value

def fieldsFindings (t : Table) (ss : Scopes) : List Field → List Finding
  | [] => []
  | f :: rest => fieldFindings t ss f ++ fieldsFindings t ss rest

/-- What is wrong with an expression that may be missing. -/
def optionFindings (t : Table) (ss : Scopes) : Option Expr → List Finding
  | none => []
  | some e => exprFindings t ss e

/-- What is wrong with a statement within scopes that are open for it, and the scopes behind it. A
branch has a scope of its own, with or without braces. -/
def innerWalk (t : Table) (ss : Scopes) : Stmt → List Finding × Scopes
  | .bind kind binding init _ =>
    let declared := ss.declareAll (kind ≠ .varWord) binding.names
    (optionFindings t ss init ++ declared.1, declared.2)
  | .function _ params body _ =>
    let opened := openScope ss (Scope.ofParams params) body
    (opened.1 ++ (stmtsWalk t opened.2 body).1, ss)
  | .assign target value _ => (exprFindings t ss target ++ exprFindings t ss value, ss)
  | .forOf binding iterable body _ =>
    let head := Scopes.declareAll ([] :: ss) true binding.names
    let opened := openBlock head.2 body
    (exprFindings t ss iterable ++ head.1 ++ opened.1 ++ (innerWalk t opened.2 body).1, ss)
  | .cond test whenTrue whenFalse _ =>
    let opened := openScope ss [] (branchBody whenTrue)
    (exprFindings t ss test ++ opened.1 ++ (innerWalk t opened.2 whenTrue).1 ++
      elseFindings t ss whenFalse, ss)
  | .result value _ => (optionFindings t ss value, ss)
  | .block body _ => ((stmtsWalk t ss body).1, ss)
  | .expr e => (exprFindings t ss e, ss)
  | .declare _ _ | .typeOnly _ | .empty _ => ([], ss)

/-- What is wrong with a second branch, if there is one. -/
def elseFindings (t : Table) (ss : Scopes) : Option Stmt → List Finding
  | none => []
  | some s =>
    let opened := openScope ss [] (branchBody s)
    opened.1 ++ (innerWalk t opened.2 s).1

/-- What is wrong with some statements, and the scopes behind them. -/
def stmtsWalk (t : Table) (ss : Scopes) : List Stmt → List Finding × Scopes
  | [] => ([], ss)
  | s :: rest =>
    let opened := openBlock ss s
    let first := innerWalk t opened.2 s
    let others := stmtsWalk t (closeBlock ss first.2 s) rest
    (opened.1 ++ first.1 ++ others.1, others.2)

end

/-- What is wrong with a file, given the global names. -/
def findings (f : File) (t : Table) : List Finding :=
  let opened := openScope [] [] f.statements
  opened.1 ++ (stmtsWalk t opened.2 f.statements).1

/-- The diagnostics of a file, given the global names. -/
def diagnostics (f : File) (t : Table) : List Diagnostic :=
  (findings f t).map (·.diagnostic f.name f.text)

end LuaSnippet.Inspect
