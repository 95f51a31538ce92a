import LuaSnippet.Script.Tree
import LuaSnippet.Lua.Tree
import LuaSnippet.Dialect

/-!
# Lowering operators

Most operators have a Lua operator of the same meaning. An addition in which an operand is a string
literal is a concatenation, and where a dialect has operations on bits only in a library, they
become calls. Operands are grouped where Lua's levels would group them otherwise.
-/

namespace LuaSnippet.Lowering

open Script (UnaryOp BinaryOp Expr)
open Lua (BinOp UnOp BitOp Builtin)

/-- Whether an expression is a string literal, in groups or not. -/
def isStringLiteral (e : Expr) : Bool :=
  match e.bare with
  | .string _ _ => true
  | _ => false

/-- The Lua operator for a binary operator whose operands are no string literals. -/
def plainOp : BinaryOp → BinOp
  | .or => .or
  | .and => .and
  | .strictEq | .eq => .eq
  | .strictNe | .ne => .ne
  | .lt => .lt
  | .le => .le
  | .gt => .gt
  | .ge => .ge
  | .bitOr => .bor
  | .bitXor => .bxor
  | .bitAnd => .band
  | .shl => .shl
  | .shr | .ushr => .shr
  | .add => .add
  | .sub => .sub
  | .mul => .mul
  | .div => .div
  | .mod => .mod

/-- The Lua operator for a binary operator between two operands. -/
def binOp (op : BinaryOp) (lhs rhs : Expr) : BinOp :=
  if op = .add && (isStringLiteral lhs || isStringLiteral rhs) then .concat else plainOp op

/-- The operation of a library for an operator on bits. -/
def bitOp : BinaryOp → BitOp
  | .bitAnd => .band
  | .bitOr => .bor
  | .bitXor => .bxor
  | .shl => .lshift
  | .shr => .arshift
  | _ => .rshift

/-- The library of a dialect that has operations on bits only there. -/
def bitLibrary? : Dialect → Option (BitOp → Builtin)
  | .lua52 => some .bit32
  | .luaJit => some .bit
  | .lua51 | .lua53 => none

/-- The function of a library that a binary operator is lowered to, if it is lowered to one. -/
def bitCall? (d : Dialect) (op : BinaryOp) : Option Builtin :=
  if op.isBitwise then (bitLibrary? d).map fun lib => lib (bitOp op) else none

/-- How tightly a lowered expression binds, if it is an operation that Lua has an operator for. -/
def loweredLevel (d : Dialect) : Expr → Option Nat
  | .binary op lhs rhs =>
    match bitCall? d op with
    | some _ => none
    | none => some (binOp op lhs rhs).level
  | .unary _ _ _ => some Lua.unaryLevel
  | _ => none

/-- Whether an operand has to be grouped beside an operator of a level; `far` says that it stands on
the side to which operators of that level do not group. -/
def needsGroup (d : Dialect) (e : Expr) (level : Nat) (far : Bool) : Bool :=
  match loweredLevel d e with
  | some own => own < level || (far && own = level)
  | none => false

def groupIf (group : Bool) (e : Lua.Expr) : Lua.Expr :=
  if group then .paren e else e

/-- Whether the text of an expression starts with a minus sign. -/
def startsMinus : Lua.Expr → Bool
  | .unary .neg _ => true
  | .binary _ lhs _ => startsMinus lhs
  | .call callee _ => startsMinus callee
  | .member owner _ => startsMinus owner
  | .number text => text.toList.head? = some '-'
  | _ => false

/-- The negation of an expression. Two minus signs in a row would start a comment. -/
def negate (e : Lua.Expr) : Lua.Expr :=
  .unary .neg (groupIf (startsMinus e) e)

end LuaSnippet.Lowering
