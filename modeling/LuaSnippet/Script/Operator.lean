/-!
# Operators

The operators of the script language, and the levels by which binary operators bind.
-/

namespace LuaSnippet.Script

/-- The operators written before one operand. -/
inductive UnaryOp where
  | not
  | neg
  | bitNot
deriving DecidableEq, Repr

/-- The operators written between two operands. -/
inductive BinaryOp where
  | or
  | and
  | bitOr
  | bitXor
  | bitAnd
  | strictEq
  | strictNe
  | eq
  | ne
  | lt
  | le
  | gt
  | ge
  | shl
  | shr
  | ushr
  | add
  | sub
  | mul
  | div
  | mod
deriving DecidableEq, Repr

namespace BinaryOp

/-- How tightly an operator binds; operators of one level group from the left. -/
def level : BinaryOp → Nat
  | or => 1
  | and => 2
  | bitOr => 3
  | bitXor => 4
  | bitAnd => 5
  | strictEq | strictNe | eq | ne => 6
  | lt | le | gt | ge => 7
  | shl | shr | ushr => 8
  | add | sub => 9
  | mul | div | mod => 10

/-- Whether an operator works on the bits of its operands. -/
def isBitwise : BinaryOp → Bool
  | bitOr | bitXor | bitAnd | shl | shr | ushr => true
  | _ => false

end BinaryOp

end LuaSnippet.Script
