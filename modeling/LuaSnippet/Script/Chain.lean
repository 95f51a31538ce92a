import LuaSnippet.Script.Tree

/-!
# Operator chains

Reading an expression first gives a flat chain: operands with binary operators between them, where
an operand is a primary expression with signs before it and calls, members and non-null marks after
it. What stands after a primary binds tightest, then the signs, then the binary operators by their
levels. A chain becomes a tree from left to right: a further operator goes down the right edge of
the tree so far, past every operator that binds more loosely than itself.
-/

namespace LuaSnippet.Script

/-- What may stand after an operand. -/
inductive Suffix where
  | call (args : List Arg) (stop : Nat)
  | member (property : Ident)
  | nonNull

/-- A primary expression with the signs before it, outermost first, and what stands after it. -/
structure Operand where
  signs : List (UnaryOp × Nat)
  primary : Expr
  suffixes : List Suffix

/-- Operands with binary operators between them. -/
structure Chain where
  first : Operand
  rest : List (BinaryOp × Operand)

/-- An expression with what stands after it. -/
def Suffix.apply (e : Expr) : Suffix → Expr
  | call args stop => .call e args ⟨e.span.start, stop⟩
  | member property => .member e property
  | nonNull => .nonNull e

/-- An expression with a sign before it, which starts at the given byte. -/
def Operand.sign (s : UnaryOp × Nat) (e : Expr) : Expr :=
  .unary s.1 e ⟨s.2, e.span.stop⟩

def Operand.toExpr (o : Operand) : Expr :=
  o.signs.foldr Operand.sign (o.suffixes.foldl Suffix.apply o.primary)

/-- The tree of a chain that goes on with one more operator and operand. -/
def Expr.attach : Expr → BinaryOp → Expr → Expr
  | .binary op lhs rhs, op', e =>
    if op.level < op'.level then .binary op lhs (rhs.attach op' e)
    else .binary op' (.binary op lhs rhs) e
  | lhs, op', e => .binary op' lhs e

def Chain.toExpr (c : Chain) : Expr :=
  c.rest.foldl (fun tree link => tree.attach link.1 link.2.toExpr) c.first.toExpr

end LuaSnippet.Script
