import LuaSnippet.Peg.Match
import LuaSnippet.Script.Rule
import LuaSnippet.Script.Chain
import LuaSnippet.Script.Quoted

/-!
# From nodes to trees

A matched text is a tree of nodes. The syntax tree is put together from the leaves up: each node
becomes a piece of syntax, made from the pieces of its children by a rule of its own. A node whose
children do not fit its rule has no piece; the grammar gives no such node.
-/

namespace LuaSnippet.Script

open Peg (Cursor Node)

/-- A part of a syntax tree, as a node of one rule gives it. -/
inductive Piece where
  /-- Nothing but the fact that the rule matched. -/
  | mark (rule : Rule)
  /-- The characters between quotes, as they are written. -/
  | raw (text : List Char)
  | name (ident : Ident)
  | prop (ident : Ident)
  | string (value : String) (span : Span)
  | type (text : String)
  | result (text : String)
  | param (p : Param)
  | params (ps : List Param)
  | kind (k : VarKind)
  | pattern (names : List Ident)
  | declaration (d : Declaration)
  | stmt (s : Stmt)
  | block (body : List Stmt) (span : Span)
  | target (e : Expr)
  | expr (e : Expr)
  | sign (op : UnaryOp) (start : Nat)
  | between (op : BinaryOp)
  | suffix (s : Suffix)
  | arg (a : Arg)
  | field (f : Field)

namespace Piece

/-! ### What a piece holds

Each of these gives what a piece of one kind holds, and nothing for a piece of any other kind. -/

def raw? : Piece → Option (List Char)
  | raw text => some text
  | _ => none

def name? : Piece → Option Ident
  | name id => some id
  | _ => none

def prop? : Piece → Option Ident
  | prop id => some id
  | _ => none

def type? : Piece → Option String
  | type text => some text
  | _ => none

def result? : Piece → Option String
  | result text => some text
  | _ => none

def param? : Piece → Option Param
  | param p => some p
  | _ => none

def params? : Piece → Option (List Param)
  | params ps => some ps
  | _ => none

def kind? : Piece → Option VarKind
  | kind k => some k
  | _ => none

def binding? : Piece → Option Binding
  | name id => some (.single id)
  | pattern names => some (.pattern names)
  | _ => none

def declaration? : Piece → Option Declaration
  | declaration d => some d
  | _ => none

def block? : Piece → Option (List Stmt × Span)
  | block body span => some (body, span)
  | _ => none

def stmt? : Piece → Option Stmt
  | stmt s => some s
  | block body span => some (.block body span)
  | _ => none

def target? : Piece → Option Expr
  | target e => some e
  | _ => none

def expr? : Piece → Option Expr
  | expr e => some e
  | _ => none

/-- A primary expression; names and strings are such. -/
def primary? : Piece → Option Expr
  | expr e => some e
  | name id => some (.ident id)
  | string value span => some (.string value span)
  | _ => none

def arg? : Piece → Option Arg
  | arg a => some a
  | _ => none

def field? : Piece → Option Field
  | field f => some f
  | _ => none

def isMark (rule : Rule) : Piece → Bool
  | mark r => r = rule
  | _ => false

/-! ### Chains -/

/-- The end of a chain while it is read from the right: what stands after the next primary, the
operand that is complete up to further signs, and the links behind it. -/
structure ChainEnd where
  suffixes : List Suffix
  operand : Option Operand
  rest : List (BinaryOp × Operand)

def extendChain (p : Piece) (e : ChainEnd) : Option ChainEnd :=
  match p, e.operand with
  | suffix s, none => some ⟨s :: e.suffixes, none, e.rest⟩
  | sign op start, some o => some ⟨[], some { o with signs := (op, start) :: o.signs }, e.rest⟩
  | between op, some o => some ⟨[], none, (op, o) :: e.rest⟩
  | p, none => p.primary?.map fun primary => ⟨[], some ⟨[], primary, e.suffixes⟩, e.rest⟩
  | _, some _ => none

def chainEnd : List Piece → Option ChainEnd
  | [] => some ⟨[], none, []⟩
  | p :: ps => (chainEnd ps).bind (extendChain p)

def chain (ps : List Piece) : Option Chain :=
  (chainEnd ps).bind fun e => e.operand.map fun o => ⟨o, e.rest⟩

/-! ### Making pieces -/

/-- The word that introduces a variable, from its mark. -/
def kindOf : Piece → Option VarKind
  | mark (.keyword .const) => some .constWord
  | mark (.keyword .let) => some .letWord
  | mark (.keyword .var) => some .varWord
  | _ => none

/-- The parameters among some pieces, if there are any. -/
def paramsOf (parts : List Piece) : List Param :=
  (parts.findSome? params?).getD []

def bareParam (name : String) : Param := ⟨name, false, false, none⟩

/-- The condition and the branches of a conditional. -/
def condOf (parts : List Piece) (span : Span) : Option Stmt :=
  match parts.findSome? expr?, parts.filterMap stmt? with
  | some test, [t] => some (.cond test t none span)
  | some test, [t, e] => some (.cond test t (some e) span)
  | _, _ => none

/-- A field of an object, written out or by its name alone. -/
def fieldOf : List Piece → Option Field
  | [name id] => some (.mk id.name (.ident id))
  | [prop id, expr e] => some (.mk id.name e)
  | [string key _, expr e] => some (.mk key e)
  | _ => none

/-- A function expression, by the form of its body. -/
def functionOf (parts : List Piece) (span : Span) : Option Expr :=
  match parts.findSome? block?, parts.findSome? expr? with
  | some (body, _), _ => some (.closure (paramsOf parts) body span)
  | none, some value => some (.arrow (paramsOf parts) value span)
  | none, none => none

/-- The target of an assignment: a name and the members after it. -/
def targetOf : List Piece → Option Expr
  | name id :: members => some ((members.filterMap prop?).foldl .member (.ident id))
  | _ => none

/-- The piece of a rule that matched from one place to another, given the pieces within. -/
def make (rule : Rule) (start stop : Cursor) (parts : List Piece) : Option Piece :=
  let span : Span := ⟨start.offset, stop.offset⟩
  let text := start.textTo stop
  match rule with
  | .ident => some (name ⟨String.ofList text, span⟩)
  | .propName => some (prop ⟨String.ofList text, span⟩)
  | .program | .block => some (block (parts.filterMap stmt?) span)
  | .declareStmt => (parts.findSome? declaration?).map fun d => stmt (.declare d span)
  | .fnSignature => (parts.findSome? prop?).map fun id =>
      declaration (.function ⟨id.name, paramsOf parts, parts.findSome? result?⟩)
  | .varSignature => (parts.findSome? prop?).bind fun id =>
      (parts.findSome? type?).map fun t => declaration (.value id.name t)
  | .spaceDecl => (parts.findSome? name?).map fun id =>
      declaration (.space id.name (parts.filterMap declaration?))
  | .interfaceDecl | .typeAlias => some (stmt (.typeOnly span))
  | .functionDecl => (parts.findSome? name?).bind fun id =>
      (parts.findSome? block?).map fun b => stmt (.function id (paramsOf parts) b.1 span)
  | .varStmt => (parts.findSome? kind?).bind fun k =>
      (parts.findSome? binding?).map fun b => stmt (.bind k b (parts.findSome? expr?) span)
  | .varKind => (parts.findSome? kindOf).map kind
  | .arrayPattern => some (pattern (parts.filterMap name?))
  | .forOfStmt => (parts.findSome? binding?).bind fun b =>
      (parts.findSome? expr?).bind fun e =>
        (parts.findSome? stmt?).map fun s => stmt (.forOf b e s span)
  | .ifStmt => (condOf parts span).map stmt
  | .returnStmt => some (stmt (.result (parts.findSome? expr?) span))
  | .emptyStmt => some (stmt (.empty span))
  | .assignStmt => (parts.findSome? target?).bind fun t =>
      (parts.findSome? expr?).map fun e => stmt (.assign t e span)
  | .assignTarget => (targetOf parts).map target
  | .exprStmt => (parts.findSome? expr?).map fun e => stmt (.expr e)
  | .params => some (params (parts.filterMap param?))
  | .param => (parts.findSome? prop?).map fun id =>
      param ⟨id.name, parts.any (isMark .optionalMarker), parts.any (isMark .restMarker),
        parts.findSome? type?⟩
  | .returnType => (parts.findSome? type?).map result
  | .type => some (type (String.ofList text))
  | .expr => (chain parts).map fun c => expr c.toExpr
  | .unaryOp op => some (sign op start.offset)
  | .binaryOp op => some (between op)
  | .callArgs => some (suffix (.call (parts.filterMap arg?) stop.offset))
  | .member => (parts.findSome? prop?).map fun id => suffix (.member id)
  | .nonNull => some (suffix .nonNull)
  | .arg => (parts.findSome? expr?).map fun e =>
      arg (if parts.any (isMark .spread) then .spread e else .plain e)
  | .arrowFn => (functionOf parts span).map expr
  | .arrowParams => some (params (match parts.findSome? name? with
      | some id => [bareParam id.name]
      | none => paramsOf parts))
  | .parenExpr => (parts.findSome? expr?).map fun e => expr (.paren e span)
  | .arrayLit => some (expr (.array (parts.filterMap arg?) span))
  | .objectLit => some (expr (.object (parts.filterMap field?) span))
  | .property => (fieldOf parts).map field
  | .numberLit => some (expr (.number (String.ofList text) span))
  | .stringLit => (parts.findSome? raw?).map fun r => string (String.ofList (unescape r)) span
  | .doubleQuoted | .singleQuoted => some (raw text)
  | .trueLit => some (expr (.bool true span))
  | .falseLit => some (expr (.bool false span))
  | .absentLit => some (expr (.absent span))
  | r => some (mark r)

mutual

def ofNode : Node Rule → Option Piece
  | .mk rule start stop children => (ofNodes children).bind (make rule start stop)

def ofNodes : List (Node Rule) → Option (List Piece)
  | [] => some []
  | x :: xs => (ofNode x).bind fun p => (ofNodes xs).map (p :: ·)

end

end Piece

end LuaSnippet.Script
