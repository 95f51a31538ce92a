import LuaSnippet.Script.Tree
import LuaSnippet.Dialect
import LuaSnippet.Diagnostic

/-!
# Operators that a dialect lacks

Lua 5.1 has no operations on bits at all, and Lua 5.3 has none that shifts to the right and keeps
the sign. Every place where a script uses such an operator is reported, in the order in which the
script is lowered: a binary operator before its operands, a unary one behind its operand.
-/

namespace LuaSnippet.Lowering

open Script (UnaryOp BinaryOp Expr Arg Field Stmt)

inductive Lack where
  | bitwise
  | signedShift
deriving DecidableEq, Repr

namespace Lack

def code : Lack → Nat
  | bitwise => 100001
  | signedShift => 100002

def text (d : Dialect) : Lack → String
  | bitwise => "Bitwise operations are not supported for target " ++ d.displayName ++ "."
  | signedShift =>
    "Right shift operator is not supported for target Lua 5.3. Use \x60>>>\x60 instead."

end Lack

/-- A lack at a byte of the text. -/
structure Report where
  lack : Lack
  offset : Nat
deriving DecidableEq, Repr

def Report.diagnostic (r : Report) (d : Dialect) (file text : String) : Diagnostic :=
  (Diagnostic.error r.lack.code (r.lack.text d)).place file text r.offset

def binaryLack (d : Dialect) (op : BinaryOp) : Option Lack :=
  match d with
  | .lua51 => if op.isBitwise then some .bitwise else none
  | .lua53 => if op = .shr then some .signedShift else none
  | .lua52 | .luaJit => none

def unaryLack (d : Dialect) (op : UnaryOp) : Option Lack :=
  match d with
  | .lua51 => if op = .bitNot then some .bitwise else none
  | .lua52 | .lua53 | .luaJit => none

def reportOf (lack : Option Lack) (offset : Nat) : List Report :=
  match lack with
  | some l => [⟨l, offset⟩]
  | none => []

mutual

def exprReports (d : Dialect) : Expr → List Report
  | .number _ _ | .string _ _ | .bool _ _ | .absent _ | .ident _ => []
  | .array elements _ => argsReports d elements
  | .object fields _ => fieldsReports d fields
  | .call callee args _ => exprReports d callee ++ argsReports d args
  | .member owner _ => exprReports d owner
  | .nonNull inner => exprReports d inner
  | .paren inner _ => exprReports d inner
  | .unary op operand span =>
    exprReports d operand ++ reportOf (unaryLack d op) span.start
  | .binary op lhs rhs =>
    reportOf (binaryLack d op) lhs.span.start ++ exprReports d lhs ++ exprReports d rhs
  | .arrow _ value _ => exprReports d value
  | .closure _ body _ => stmtsReports d body

def argReports (d : Dialect) : Arg → List Report
  | .plain value => exprReports d value
  | .spread value => exprReports d value

def argsReports (d : Dialect) : List Arg → List Report
  | [] => []
  | a :: rest => argReports d a ++ argsReports d rest

def fieldReports (d : Dialect) : Field → List Report
  | .mk _ value => exprReports d value

def fieldsReports (d : Dialect) : List Field → List Report
  | [] => []
  | f :: rest => fieldReports d f ++ fieldsReports d rest

def optionReports (d : Dialect) : Option Expr → List Report
  | none => []
  | some e => exprReports d e

def stmtReports (d : Dialect) : Stmt → List Report
  | .bind _ _ init _ => optionReports d init
  | .function _ _ body _ => stmtsReports d body
  | .assign target value _ => exprReports d target ++ exprReports d value
  | .forOf _ iterable body _ => exprReports d iterable ++ stmtReports d body
  | .cond test whenTrue whenFalse _ =>
    exprReports d test ++ stmtReports d whenTrue ++ elseReports d whenFalse
  | .result value _ => optionReports d value
  | .block body _ => stmtsReports d body
  | .expr e => exprReports d e
  | .declare _ _ | .typeOnly _ | .empty _ => []

def elseReports (d : Dialect) : Option Stmt → List Report
  | none => []
  | some s => stmtReports d s

def stmtsReports (d : Dialect) : List Stmt → List Report
  | [] => []
  | s :: rest => stmtReports d s ++ stmtsReports d rest

end

end LuaSnippet.Lowering
