import LuaSnippet.Script.Operator

/-!
# Syntax trees

The tree of a script: statements, expressions and ambient declarations, each with the bytes of the
text it was read from. Types are kept as they are written. Groups and non-null marks stay in the
tree, although they change no value; `Expr.bare` looks through them.
-/

namespace LuaSnippet.Script

/-- A range of bytes of a text, the end excluded. -/
structure Span where
  start : Nat
  stop : Nat
deriving DecidableEq, Repr, Inhabited

/-- A name at its place. -/
structure Ident where
  name : String
  span : Span
deriving DecidableEq, Repr, Inhabited

/-- The word that introduces variables. -/
inductive VarKind where
  | constWord
  | letWord
  | varWord
deriving DecidableEq, Repr

/-- What a variable statement or a loop binds. -/
inductive Binding where
  | single (name : Ident)
  | pattern (names : List Ident)
deriving DecidableEq, Repr

def Binding.names : Binding → List Ident
  | .single name => [name]
  | .pattern names => names

/-- A parameter; its type is kept as it is written. -/
structure Param where
  name : String
  isOptional : Bool
  isRest : Bool
  type? : Option String
deriving DecidableEq, Repr

/-- The parameters and the result of a declared function. -/
structure Signature where
  name : String
  params : List Param
  result? : Option String
deriving DecidableEq, Repr

namespace Signature

/-- The number of arguments that a call has to give. -/
def minArgs (s : Signature) : Nat :=
  (s.params.filter fun p => !p.isOptional && !p.isRest).length

/-- The number of arguments that a call may give; a rest parameter takes any number. -/
def maxArgs (s : Signature) : Option Nat :=
  if s.params.any (·.isRest) then none else some s.params.length

def resultStarts (s : Signature) (word : String) : Bool :=
  match s.result? with
  | some type => word.toList.isPrefixOf type.toList
  | none => false

/-- Whether a call gives several values. -/
def isMulti (s : Signature) : Bool := s.resultStarts "LuaMultiReturn"

/-- Whether a call gives an iterator for a generic loop. -/
def isIterable (s : Signature) : Bool := s.resultStarts "LuaIterable"

end Signature

/-- An ambient declaration. -/
inductive Declaration where
  | function (signature : Signature)
  | value (name : String) (type : String)
  | space (name : String) (members : List Declaration)

/-- The name that a declaration declares. -/
def Declaration.name : Declaration → String
  | .function s => s.name
  | .value n _ => n
  | .space n _ => n

mutual

/-- An expression. -/
inductive Expr where
  /-- A number, as it is written. -/
  | number (text : String) (span : Span)
  /-- A string, its escapes resolved. -/
  | string (value : String) (span : Span)
  | bool (value : Bool) (span : Span)
  /-- An absent value, under either of its words. -/
  | absent (span : Span)
  | ident (name : Ident)
  | array (elements : List Arg) (span : Span)
  | object (fields : List Field) (span : Span)
  | call (callee : Expr) (args : List Arg) (span : Span)
  | member (object : Expr) (property : Ident)
  | nonNull (inner : Expr)
  | paren (inner : Expr) (span : Span)
  | unary (op : UnaryOp) (operand : Expr) (span : Span)
  | binary (op : BinaryOp) (lhs rhs : Expr)
  /-- A function whose body is one expression. -/
  | arrow (params : List Param) (value : Expr) (span : Span)
  /-- A function whose body is a block. -/
  | closure (params : List Param) (body : List Stmt) (span : Span)

/-- An argument of a call, or an element of an array. -/
inductive Arg where
  | plain (value : Expr)
  | spread (value : Expr)

inductive Field where
  | mk (key : String) (value : Expr)

/-- A statement. -/
inductive Stmt where
  | bind (kind : VarKind) (binding : Binding) (init : Option Expr) (span : Span)
  | function (name : Ident) (params : List Param) (body : List Stmt) (span : Span)
  | assign (target value : Expr) (span : Span)
  | forOf (binding : Binding) (iterable : Expr) (body : Stmt) (span : Span)
  | cond (test : Expr) (whenTrue : Stmt) (whenFalse : Option Stmt) (span : Span)
  | result (value : Option Expr) (span : Span)
  | block (body : List Stmt) (span : Span)
  | expr (value : Expr)
  | declare (declaration : Declaration) (span : Span)
  /-- A declaration of a type, which leaves no trace. -/
  | typeOnly (span : Span)
  | empty (span : Span)

end

/-- The expression of an argument. -/
def Arg.value : Arg → Expr
  | .plain e => e
  | .spread e => e

/-- Whether an argument stands for all elements of its value. -/
def Arg.isSpread : Arg → Bool
  | .plain _ => false
  | .spread _ => true

def Field.key : Field → String
  | .mk key _ => key

def Field.value : Field → Expr
  | .mk _ value => value

namespace Expr

/-- The bytes an expression was read from; a non-null mark is not counted. -/
def span : Expr → Span
  | number _ s | string _ s | bool _ s | absent s | array _ s | object _ s | call _ _ s
  | paren _ s | unary _ _ s | arrow _ _ s | closure _ _ s => s
  | ident name => name.span
  | member owner property => ⟨owner.span.start, property.span.stop⟩
  | nonNull inner => inner.span
  | binary _ lhs rhs => ⟨lhs.span.start, rhs.span.stop⟩

/-- The expression without the groups and non-null marks around it. -/
def bare : Expr → Expr
  | nonNull inner => inner.bare
  | paren inner _ => inner.bare
  | e => e

end Expr

end LuaSnippet.Script
