import LuaSnippet.Proofs.Script.Site

/-!
# Roles of calls

The calls of a script are listed with the role that each of them has in what directly holds it. Groups
and non-null marks change no role. The list is complete: it goes through the same sites, in the same
order, as the list of all of them.
-/

namespace LuaSnippet.Script

/-- The role of an expression in what directly holds it. -/
inductive Role where
  /-- The value of one variable. -/
  | initial
  /-- The value of a pattern. -/
  | destructured
  /-- What is assigned to. -/
  | target
  | assigned
  | iterated
  | tested
  | returned
  /-- Evaluated as a statement. -/
  | evaluated
  | argument (spread : Bool)
  /-- One of several elements of an array. -/
  | element (spread : Bool)
  /-- The only element of an array, which has a role itself. -/
  | only (spread : Bool) (array : Role)
  | property
  | callee
  | owner
  /-- An operand, of an operator on bits or another. -/
  | operand (onBits : Bool)
deriving DecidableEq, Repr

def Role.ofElements (array : Role) (elements : List Arg) (spread : Bool) : Role :=
  if elements.length = 1 then .only spread array else .element spread

def Role.ofBinding : Binding → Role
  | .single _ => .initial
  | .pattern _ => .destructured

/-- A call with the way that leads to it and its role. -/
structure CallSite where
  call : Expr
  way : Way
  role : Role

mutual

/-- The calls of an expression that has a role, each behind its parts. -/
def exprCalls (w : Way) (r : Role) : Expr → List CallSite
  | .number _ _ | .string _ _ | .bool _ _ | .absent _ | .ident _ => []
  | .array elements _ => argsCalls w (r.ofElements elements) elements
  | .object fields _ => fieldsCalls w fields
  | .call callee args span =>
    exprCalls w .callee callee ++ argsCalls w .argument args ++ [⟨.call callee args span, w, r⟩]
  | .member owner _ => exprCalls w .owner owner
  | .nonNull inner => exprCalls w r inner
  | .paren inner _ => exprCalls w r inner
  | .unary op operand _ => exprCalls w (.operand (op = .bitNot)) operand
  | .binary op lhs rhs =>
    exprCalls w (.operand op.isBitwise) lhs ++ exprCalls w (.operand op.isBitwise) rhs
  | .arrow params value _ => exprCalls (w.arrow params) .returned value
  | .closure params body _ => stmtsCalls (w.closure params body) body

/-- The calls of an argument, whose role depends on whether it is spread. -/
def argCalls (w : Way) (role : Bool → Role) : Arg → List CallSite
  | .plain value => exprCalls w (role false) value
  | .spread value => exprCalls w (role true) value

def argsCalls (w : Way) (role : Bool → Role) : List Arg → List CallSite
  | [] => []
  | a :: rest => argCalls w role a ++ argsCalls w role rest

def fieldCalls (w : Way) : Field → List CallSite
  | .mk _ value => exprCalls w .property value

def fieldsCalls (w : Way) : List Field → List CallSite
  | [] => []
  | f :: rest => fieldCalls w f ++ fieldsCalls w rest

def optionCalls (w : Way) (r : Role) : Option Expr → List CallSite
  | none => []
  | some e => exprCalls w r e

/-- The calls of a statement that the way leads into, if it is a block. -/
def innerCalls (w : Way) : Stmt → List CallSite
  | .bind _ binding init _ => optionCalls w (.ofBinding binding) init
  | .function name params body _ => stmtsCalls (w.function name params body) body
  | .assign target value _ => exprCalls w .target target ++ exprCalls w .assigned value
  | .forOf binding iterable body _ =>
    exprCalls w .iterated iterable ++ innerCalls (w.loop binding body) body
  | .cond test whenTrue whenFalse _ =>
    exprCalls w .tested test ++ innerCalls (w.branch whenTrue) whenTrue ++ elseCalls w whenFalse
  | .result value _ => optionCalls w .returned value
  | .block body _ => stmtsCalls w body
  | .expr e => exprCalls w .evaluated e
  | .declare _ _ | .typeOnly _ | .empty _ => []

def elseCalls (w : Way) : Option Stmt → List CallSite
  | none => []
  | some s => innerCalls (w.otherwise s) s

def stmtsCalls (w : Way) : List Stmt → List CallSite
  | [] => []
  | s :: rest => innerCalls (w.toward s) s ++ stmtsCalls (w.past s) rest

end

/-- The calls of a script. -/
def calls (body : List Stmt) : List CallSite :=
  stmtsCalls (.file body) body

/-! ### No call is missing -/

def Site.isCall (p : Site) : Bool :=
  match p.expr with
  | .call _ _ _ => true
  | _ => false

def CallSite.site (p : CallSite) : Site :=
  ⟨p.call, p.way⟩

/-- Some calls are those at some sites. -/
def AreCallsOf (cs : List CallSite) (ps : List Site) : Prop :=
  cs.map CallSite.site = ps.filter Site.isCall

namespace AreCallsOf

variable {cs ds : List CallSite} {ps qs : List Site}

theorem nil : AreCallsOf [] [] := rfl

theorem append (hcs : AreCallsOf cs ps) (hds : AreCallsOf ds qs) :
    AreCallsOf (cs ++ ds) (ps ++ qs) := by
  unfold AreCallsOf at *
  rw [List.map_append, List.filter_append, hcs, hds]

end AreCallsOf

mutual

theorem areCallsOf_expr : ∀ (e : Expr) (w : Way) (r : Role),
    AreCallsOf (exprCalls w r e) (exprSites w e)
  | .number _ _, _, _ | .string _ _, _, _ | .bool _ _, _, _ | .absent _, _, _
  | .ident _, _, _ => .nil
  | .array elements _, w, r => areCallsOf_args elements w (r.ofElements elements)
  | .object fields _, w, _ => areCallsOf_fields fields w
  | .call callee args span, w, r => by
    have hself : AreCallsOf [⟨.call callee args span, w, r⟩] [⟨.call callee args span, w⟩] := rfl
    exact ((areCallsOf_expr callee w .callee).append (areCallsOf_args args w .argument)).append hself
  | .member owner property, w, _ => by
    have hself : AreCallsOf [] [⟨.member owner property, w⟩] := rfl
    have hall := (areCallsOf_expr owner w .owner).append hself
    rw [List.append_nil] at hall
    exact hall
  | .nonNull inner, w, r | .paren inner _, w, r => areCallsOf_expr inner w r
  | .unary op operand _, w, _ => areCallsOf_expr operand w (.operand (op = .bitNot))
  | .binary op lhs rhs, w, _ =>
    (areCallsOf_expr lhs w (.operand op.isBitwise)).append
      (areCallsOf_expr rhs w (.operand op.isBitwise))
  | .arrow params value _, w, _ => areCallsOf_expr value (w.arrow params) .returned
  | .closure params body _, w, _ => areCallsOf_stmts body (w.closure params body)

theorem areCallsOf_arg : ∀ (a : Arg) (w : Way) (role : Bool → Role),
    AreCallsOf (argCalls w role a) (argSites w a)
  | .plain value, w, role => areCallsOf_expr value w (role false)
  | .spread value, w, role => areCallsOf_expr value w (role true)

theorem areCallsOf_args : ∀ (args : List Arg) (w : Way) (role : Bool → Role),
    AreCallsOf (argsCalls w role args) (argsSites w args)
  | [], _, _ => .nil
  | a :: rest, w, role => (areCallsOf_arg a w role).append (areCallsOf_args rest w role)

theorem areCallsOf_field : ∀ (f : Field) (w : Way), AreCallsOf (fieldCalls w f) (fieldSites w f)
  | .mk _ value, w => areCallsOf_expr value w .property

theorem areCallsOf_fields : ∀ (fields : List Field) (w : Way),
    AreCallsOf (fieldsCalls w fields) (fieldsSites w fields)
  | [], _ => .nil
  | f :: rest, w => (areCallsOf_field f w).append (areCallsOf_fields rest w)

theorem areCallsOf_inner : ∀ (s : Stmt) (w : Way), AreCallsOf (innerCalls w s) (innerSites w s)
  | .bind _ _ none _, _ => .nil
  | .bind _ binding (some init) _, w => areCallsOf_expr init w (.ofBinding binding)
  | .function name params body _, w => areCallsOf_stmts body (w.function name params body)
  | .assign target value _, w =>
    (areCallsOf_expr target w .target).append (areCallsOf_expr value w .assigned)
  | .forOf binding iterable body _, w =>
    (areCallsOf_expr iterable w .iterated).append (areCallsOf_inner body (w.loop binding body))
  | .cond test whenTrue whenFalse _, w =>
    ((areCallsOf_expr test w .tested).append
      (areCallsOf_inner whenTrue (w.branch whenTrue))).append (areCallsOf_else whenFalse w)
  | .result none _, _ => .nil
  | .result (some value) _, w => areCallsOf_expr value w .returned
  | .block body _, w => areCallsOf_stmts body w
  | .expr e, w => areCallsOf_expr e w .evaluated
  | .declare _ _, _ | .typeOnly _, _ | .empty _, _ => .nil

theorem areCallsOf_else : ∀ (rest : Option Stmt) (w : Way),
    AreCallsOf (elseCalls w rest) (elseSites w rest)
  | none, _ => .nil
  | some s, w => areCallsOf_inner s (w.otherwise s)

theorem areCallsOf_stmts : ∀ (body : List Stmt) (w : Way),
    AreCallsOf (stmtsCalls w body) (stmtsSites w body)
  | [], _ => .nil
  | s :: rest, w => (areCallsOf_inner s (w.toward s)).append (areCallsOf_stmts rest (w.past s))

end

end LuaSnippet.Script
