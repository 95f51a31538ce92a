/-!
# Lua trees

The part of Lua that scripts are lowered to. Groups are kept as they are to be written. A name that
stands for the runtime library is kept apart from a name of the program, although both are written
alike.
-/

namespace LuaSnippet.Lua

/-- The operators written before one operand. -/
inductive UnOp where
  | not
  | neg
  | bnot
deriving DecidableEq, Repr

/-- The operators written between two operands. -/
inductive BinOp where
  | or
  | and
  | eq
  | ne
  | lt
  | le
  | gt
  | ge
  | bor
  | bxor
  | band
  | shl
  | shr
  | concat
  | add
  | sub
  | mul
  | div
  | mod
deriving DecidableEq, Repr

namespace BinOp

/-- How tightly an operator binds. -/
def level : BinOp → Nat
  | or => 1
  | and => 2
  | eq | ne | lt | le | gt | ge => 3
  | bor => 4
  | bxor => 5
  | band => 6
  | shl | shr => 7
  | concat => 8
  | add | sub => 9
  | mul | div | mod => 10

/-- Whether operators of one level group from the right. -/
def fromRight : BinOp → Bool
  | concat => true
  | _ => false

def sign : BinOp → String
  | or => "or"
  | and => "and"
  | eq => "=="
  | ne => "~="
  | lt => "<"
  | le => "<="
  | gt => ">"
  | ge => ">="
  | bor => "|"
  | bxor => "~"
  | band => "&"
  | shl => "<<"
  | shr => ">>"
  | concat => ".."
  | add => "+"
  | sub => "-"
  | mul => "*"
  | div => "/"
  | mod => "%"

end BinOp

/-- How tightly the unary operators bind. -/
def unaryLevel : Nat := 11

/-- The operations that Lua libraries offer on bits. -/
inductive BitOp where
  | band
  | bor
  | bxor
  | bnot
  | lshift
  | rshift
  | arshift
deriving DecidableEq, Repr

/-- The name of an operation on bits in its library. -/
def BitOp.name : BitOp → String
  | .band => "band"
  | .bor => "bor"
  | .bxor => "bxor"
  | .bnot => "bnot"
  | .lshift => "lshift"
  | .rshift => "rshift"
  | .arshift => "arshift"

/-- What the lowering itself needs at run time. -/
inductive Builtin where
  /-- The values of a table, as a global function. -/
  | unpack
  /-- The values of a table, as a function of the table library. -/
  | tableUnpack
  | ipairs
  | bit32 (op : BitOp)
  | bit (op : BitOp)
  /-- The element that a loop is at. -/
  | loopValue
deriving DecidableEq, Repr

def Builtin.text : Builtin → String
  | .unpack => "unpack"
  | .tableUnpack => "table.unpack"
  | .ipairs => "ipairs"
  | .bit32 op => "bit32." ++ op.name
  | .bit op => "bit." ++ op.name
  | .loopValue => "____value"

/-- A parameter: a name, or all further arguments. -/
inductive Param where
  | name (n : String)
  | dots
deriving DecidableEq, Repr

mutual

inductive Expr where
  | number (text : String)
  | string (value : String)
  | bool (value : Bool)
  | nil
  | name (n : String)
  | builtin (b : Builtin)
  /-- All further arguments of the function around. -/
  | dots
  | table (fields : List Field)
  | call (callee : Expr) (args : List Expr)
  | member (owner : Expr) (key : String)
  | paren (inner : Expr)
  | unary (op : UnOp) (operand : Expr)
  | binary (op : BinOp) (lhs rhs : Expr)
  /-- A function on one line that returns a value; its further arguments may be packed first. -/
  | lambda (params : List Param) (packed : Option String) (value : Expr)
  | function (params : List Param) (body : List Stmt)

inductive Field where
  | item (value : Expr)
  | entry (key : String) (value : Expr)

/-- A statement. -/
inductive Stmt where
  | declare (names : List String) (value : Option Expr)
  | function (name : String) (params : List Param) (body : List Stmt)
  | assign (target value : Expr)
  | call (value : Expr)
  /-- An expression that is evaluated for nothing. -/
  | discard (value : Expr)
  | result (value : Option Expr)
  | block (body : List Stmt)
  | cond (test : Expr) (body : List Stmt) (rest : Else)
  | forIn (names : List String) (iterator : Expr) (body : List Stmt)

/-- How a conditional goes on behind a branch. -/
inductive Else where
  | done
  | otherwise (body : List Stmt)
  | elseIf (test : Expr) (body : List Stmt) (rest : Else)

end

end LuaSnippet.Lua
