import LuaSnippet.Script.Piece

/-!
# What a rule makes

All that the rest knows of how a piece is made from the pieces within. `Made` has a case for each form
that a rule gives its piece, with what was found for it (`make_eq_some_iff`), and an expression is built
from the suffixes, the signs and the primary expressions of a chain (`holds_of_chain`). So a property of
all pieces is proved form by form, and one of expressions by what these three do to it.
-/

namespace LuaSnippet.Script

open Peg (Cursor)

def Rule.leavesMark : Rule → Bool
  | .finish | .keyword _ | .reserved | .statement | .restMarker | .optionalMarker | .typeParams
  | .typeParam | .typeMember | .arraySuffix | .typePrimary | .fnType | .parenType | .tupleType
  | .tupleElem | .objType | .objMember | .indexSignature | .methodSignature | .propertySignature
  | .typeRef | .qualifiedName | .typeArgs | .spread | .primary => true
  | _ => false

namespace Piece

/-! ### Forms of pieces -/

/-- Whether a rule that matched from one place to another makes a piece of the pieces within. -/
inductive Made (start stop : Cursor) (parts : List Piece) : Rule → Piece → Prop where
  | ident : Made start stop parts .ident
      (name ⟨String.ofList (start.textTo stop), ⟨start.offset, stop.offset⟩⟩)
  | propName : Made start stop parts .propName
      (prop ⟨String.ofList (start.textTo stop), ⟨start.offset, stop.offset⟩⟩)
  | program : Made start stop parts .program
      (block (parts.filterMap stmt?) ⟨start.offset, stop.offset⟩)
  | block : Made start stop parts .block
      (block (parts.filterMap stmt?) ⟨start.offset, stop.offset⟩)
  | declareStmt {d : Declaration} (hd : parts.findSome? declaration? = some d) :
    Made start stop parts .declareStmt (stmt (.declare d ⟨start.offset, stop.offset⟩))
  | fnSignature {id : Ident} (hid : parts.findSome? prop? = some id) :
    Made start stop parts .fnSignature
      (declaration (.function ⟨id.name, paramsOf parts, parts.findSome? result?⟩))
  | varSignature {id : Ident} {t : String} (hid : parts.findSome? prop? = some id)
    (ht : parts.findSome? type? = some t) :
    Made start stop parts .varSignature (declaration (.value id.name t))
  | spaceDecl {id : Ident} (hid : parts.findSome? name? = some id) :
    Made start stop parts .spaceDecl
      (declaration (.space id.name (parts.filterMap declaration?)))
  | interfaceDecl : Made start stop parts .interfaceDecl
      (stmt (.typeOnly ⟨start.offset, stop.offset⟩))
  | typeAlias : Made start stop parts .typeAlias (stmt (.typeOnly ⟨start.offset, stop.offset⟩))
  | functionDecl {id : Ident} {b : List Stmt × Span} (hid : parts.findSome? name? = some id)
    (hb : parts.findSome? block? = some b) :
    Made start stop parts .functionDecl
      (stmt (.function id (paramsOf parts) b.1 ⟨start.offset, stop.offset⟩))
  | varStmt {k : VarKind} {b : Binding} (hk : parts.findSome? kind? = some k)
    (hb : parts.findSome? binding? = some b) :
    Made start stop parts .varStmt
      (stmt (.bind k b (parts.findSome? expr?) ⟨start.offset, stop.offset⟩))
  | varKind {k : VarKind} (hk : parts.findSome? kindOf = some k) :
    Made start stop parts .varKind (kind k)
  | arrayPattern : Made start stop parts .arrayPattern (pattern (parts.filterMap name?))
  | forOfStmt {b : Binding} {e : Expr} {s : Stmt} (hb : parts.findSome? binding? = some b)
    (he : parts.findSome? expr? = some e) (hs : parts.findSome? stmt? = some s) :
    Made start stop parts .forOfStmt (stmt (.forOf b e s ⟨start.offset, stop.offset⟩))
  | ifStmt {test : Expr} {t : Stmt} {other : Option Stmt}
    (htest : parts.findSome? expr? = some test)
    (hbranches : parts.filterMap stmt? = t :: other.toList) :
    Made start stop parts .ifStmt (stmt (.cond test t other ⟨start.offset, stop.offset⟩))
  | returnStmt : Made start stop parts .returnStmt
      (stmt (.result (parts.findSome? expr?) ⟨start.offset, stop.offset⟩))
  | emptyStmt : Made start stop parts .emptyStmt (stmt (.empty ⟨start.offset, stop.offset⟩))
  | assignStmt {t e : Expr} (ht : parts.findSome? target? = some t)
    (he : parts.findSome? expr? = some e) :
    Made start stop parts .assignStmt (stmt (.assign t e ⟨start.offset, stop.offset⟩))
  | assignTarget {id : Ident} {members : List Piece} (hparts : parts = name id :: members) :
    Made start stop parts .assignTarget
      (target ((members.filterMap prop?).foldl .member (.ident id)))
  | exprStmt {e : Expr} (he : parts.findSome? expr? = some e) :
    Made start stop parts .exprStmt (stmt (.expr e))
  | params : Made start stop parts .params (params (parts.filterMap param?))
  | param {id : Ident} (hid : parts.findSome? prop? = some id) :
    Made start stop parts .param (param ⟨id.name, parts.any (isMark .optionalMarker),
      parts.any (isMark .restMarker), parts.findSome? type?⟩)
  | returnType {t : String} (ht : parts.findSome? type? = some t) :
    Made start stop parts .returnType (result t)
  | type : Made start stop parts .type (type (String.ofList (start.textTo stop)))
  | expr {c : Chain} (hc : chain parts = some c) : Made start stop parts .expr (expr c.toExpr)
  | unaryOp {op : UnaryOp} : Made start stop parts (.unaryOp op) (sign op start.offset)
  | binaryOp {op : BinaryOp} : Made start stop parts (.binaryOp op) (between op)
  | callArgs : Made start stop parts .callArgs (suffix (.call (parts.filterMap arg?) stop.offset))
  | member {id : Ident} (hid : parts.findSome? prop? = some id) :
    Made start stop parts .member (suffix (.member id))
  | nonNull : Made start stop parts .nonNull (suffix .nonNull)
  | plainArg {e : Expr} (hspread : parts.any (isMark .spread) = false)
    (he : parts.findSome? expr? = some e) : Made start stop parts .arg (arg (.plain e))
  | spreadArg {e : Expr} (hspread : parts.any (isMark .spread) = true)
    (he : parts.findSome? expr? = some e) : Made start stop parts .arg (arg (.spread e))
  | closure {b : List Stmt × Span} (hb : parts.findSome? block? = some b) :
    Made start stop parts .arrowFn
      (expr (.closure (paramsOf parts) b.1 ⟨start.offset, stop.offset⟩))
  | arrow {e : Expr} (hb : parts.findSome? block? = none) (he : parts.findSome? expr? = some e) :
    Made start stop parts .arrowFn (expr (.arrow (paramsOf parts) e ⟨start.offset, stop.offset⟩))
  | bareParams {id : Ident} (hid : parts.findSome? name? = some id) :
    Made start stop parts .arrowParams (params [bareParam id.name])
  | arrowParams (hid : parts.findSome? name? = none) :
    Made start stop parts .arrowParams (params (paramsOf parts))
  | parenExpr {e : Expr} (he : parts.findSome? expr? = some e) :
    Made start stop parts .parenExpr (expr (.paren e ⟨start.offset, stop.offset⟩))
  | arrayLit : Made start stop parts .arrayLit
      (expr (.array (parts.filterMap arg?) ⟨start.offset, stop.offset⟩))
  | objectLit : Made start stop parts .objectLit
      (expr (.object (parts.filterMap field?) ⟨start.offset, stop.offset⟩))
  | shortProperty {id : Ident} (hparts : parts = [name id]) :
    Made start stop parts .property (field (.mk id.name (.ident id)))
  | namedProperty {id : Ident} {e : Expr} (hparts : parts = [prop id, expr e]) :
    Made start stop parts .property (field (.mk id.name e))
  | quotedProperty {key : String} {span : Span} {e : Expr} (hparts : parts = [string key span, expr e]) :
    Made start stop parts .property (field (.mk key e))
  | numberLit : Made start stop parts .numberLit
      (expr (.number (String.ofList (start.textTo stop)) ⟨start.offset, stop.offset⟩))
  | stringLit {text : List Char} (htext : parts.findSome? raw? = some text) :
    Made start stop parts .stringLit
      (string (String.ofList (unescape text)) ⟨start.offset, stop.offset⟩)
  | doubleQuoted : Made start stop parts .doubleQuoted (raw (start.textTo stop))
  | singleQuoted : Made start stop parts .singleQuoted (raw (start.textTo stop))
  | trueLit : Made start stop parts .trueLit (expr (.bool true ⟨start.offset, stop.offset⟩))
  | falseLit : Made start stop parts .falseLit (expr (.bool false ⟨start.offset, stop.offset⟩))
  | absentLit : Made start stop parts .absentLit (expr (.absent ⟨start.offset, stop.offset⟩))
  | mark {r : Rule} (hr : r.leavesMark = true) : Made start stop parts r (mark r)

section

variable {start stop : Cursor} {parts : List Piece} {rule : Rule} {p : Piece}

theorem condOf_eq_some_iff {span : Span} {s : Stmt} : condOf parts span = some s ↔
    ∃ test t other, parts.findSome? expr? = some test ∧
      parts.filterMap stmt? = t :: other.toList ∧ s = .cond test t other span := by
  constructor
  · intro h
    unfold condOf at h
    split at h
    · rename_i htest hbranches
      exact ⟨_, _, none, htest, hbranches, (Option.some.inj h).symm⟩
    · rename_i htest hbranches
      exact ⟨_, _, some _, htest, hbranches, (Option.some.inj h).symm⟩
    · cases h
  · rintro ⟨test, t, other, htest, hbranches, rfl⟩
    rw [condOf, htest, hbranches]
    cases other <;> rfl

/-- **The piece of a rule has one of the forms**, and what has one of them is the piece. -/
theorem make_eq_some_iff : make rule start stop parts = some p ↔ Made start stop parts rule p := by
  constructor
  · intro h
    cases rule with
    | ident | propName | program | block | interfaceDecl | typeAlias | arrayPattern | returnStmt
    | emptyStmt | params | type | unaryOp | binaryOp | callArgs | nonNull | arrayLit | objectLit
    | numberLit | doubleQuoted | singleQuoted | trueLit | falseLit | absentLit =>
      obtain rfl := Option.some.inj h
      constructor
    | declareStmt =>
      obtain ⟨d, hd, rfl⟩ := Option.map_eq_some_iff.mp h
      exact .declareStmt hd
    | fnSignature =>
      obtain ⟨id, hid, rfl⟩ := Option.map_eq_some_iff.mp h
      exact .fnSignature hid
    | varSignature =>
      obtain ⟨id, hid, h⟩ := Option.bind_eq_some_iff.mp h
      obtain ⟨t, ht, rfl⟩ := Option.map_eq_some_iff.mp h
      exact .varSignature hid ht
    | spaceDecl =>
      obtain ⟨id, hid, rfl⟩ := Option.map_eq_some_iff.mp h
      exact .spaceDecl hid
    | functionDecl =>
      obtain ⟨id, hid, h⟩ := Option.bind_eq_some_iff.mp h
      obtain ⟨b, hb, rfl⟩ := Option.map_eq_some_iff.mp h
      exact .functionDecl hid hb
    | varStmt =>
      obtain ⟨k, hk, h⟩ := Option.bind_eq_some_iff.mp h
      obtain ⟨b, hb, rfl⟩ := Option.map_eq_some_iff.mp h
      exact .varStmt hk hb
    | varKind =>
      obtain ⟨k, hk, rfl⟩ := Option.map_eq_some_iff.mp h
      exact .varKind hk
    | forOfStmt =>
      obtain ⟨b, hb, h⟩ := Option.bind_eq_some_iff.mp h
      obtain ⟨e, he, h⟩ := Option.bind_eq_some_iff.mp h
      obtain ⟨s, hs, rfl⟩ := Option.map_eq_some_iff.mp h
      exact .forOfStmt hb he hs
    | ifStmt =>
      obtain ⟨s, hs, rfl⟩ := Option.map_eq_some_iff.mp h
      obtain ⟨test, t, other, htest, hbranches, rfl⟩ := condOf_eq_some_iff.mp hs
      exact .ifStmt htest hbranches
    | assignStmt =>
      obtain ⟨t, ht, h⟩ := Option.bind_eq_some_iff.mp h
      obtain ⟨e, he, rfl⟩ := Option.map_eq_some_iff.mp h
      exact .assignStmt ht he
    | assignTarget =>
      obtain ⟨e, he, rfl⟩ := Option.map_eq_some_iff.mp h
      unfold targetOf at he
      split at he
      · obtain rfl := Option.some.inj he
        exact .assignTarget rfl
      · cases he
    | exprStmt =>
      obtain ⟨e, he, rfl⟩ := Option.map_eq_some_iff.mp h
      exact .exprStmt he
    | param =>
      obtain ⟨id, hid, rfl⟩ := Option.map_eq_some_iff.mp h
      exact .param hid
    | returnType =>
      obtain ⟨t, ht, rfl⟩ := Option.map_eq_some_iff.mp h
      exact .returnType ht
    | expr =>
      obtain ⟨c, hc, rfl⟩ := Option.map_eq_some_iff.mp h
      exact .expr hc
    | member =>
      obtain ⟨id, hid, rfl⟩ := Option.map_eq_some_iff.mp h
      exact .member hid
    | arg =>
      obtain ⟨e, he, rfl⟩ := Option.map_eq_some_iff.mp h
      split
      · rename_i hspread
        exact .spreadArg hspread he
      · rename_i hspread
        exact .plainArg (Bool.eq_false_iff.mpr hspread) he
    | arrowFn =>
      obtain ⟨e, he, rfl⟩ := Option.map_eq_some_iff.mp h
      unfold functionOf at he
      split at he
      · rename_i hb
        obtain rfl := Option.some.inj he
        exact .closure hb
      · rename_i hb he'
        obtain rfl := Option.some.inj he
        exact .arrow hb he'
      · cases he
    | arrowParams =>
      obtain rfl := Option.some.inj h
      split
      · rename_i hid
        exact .bareParams hid
      · rename_i hid
        exact .arrowParams hid
    | parenExpr =>
      obtain ⟨e, he, rfl⟩ := Option.map_eq_some_iff.mp h
      exact .parenExpr he
    | property =>
      obtain ⟨f, hf, rfl⟩ := Option.map_eq_some_iff.mp h
      unfold fieldOf at hf
      split at hf
      · obtain rfl := Option.some.inj hf
        exact .shortProperty rfl
      · obtain rfl := Option.some.inj hf
        exact .namedProperty rfl
      · obtain rfl := Option.some.inj hf
        exact .quotedProperty rfl
      · cases hf
    | stringLit =>
      obtain ⟨text, htext, rfl⟩ := Option.map_eq_some_iff.mp h
      exact .stringLit htext
    | _ =>
      obtain rfl := Option.some.inj h
      exact .mark rfl
  · intro h
    cases h with
    | ifStmt htest hbranches =>
      refine Option.map_eq_some_iff.mpr ⟨_, ?_, rfl⟩
      exact condOf_eq_some_iff.mpr ⟨_, _, _, htest, hbranches, rfl⟩
    | assignTarget hparts | shortProperty hparts | namedProperty hparts | quotedProperty hparts =>
      subst hparts
      rfl
    | closure hb => simp [make, functionOf, hb]
    | arrow hb he => simp [make, functionOf, hb, he]
    | mark hr =>
      cases rule <;> first | rfl | cases hr
    | _ => simp [make, *]

end

/-! ### Chains -/

/-- Whether properties are kept on the way from a chain to its tree: `B` from a primary expression
through its suffixes, and `E` from there through signs and binary operators. -/
structure Builds (B E : Expr → Prop) (S : Suffix → Prop) (G : UnaryOp × Nat → Prop) : Prop where
  apply : ∀ {e s}, B e → S s → B (s.apply e)
  bare : ∀ {e}, B e → E e
  sign : ∀ {s e}, G s → E e → E (Operand.sign s e)
  binary : ∀ {op lhs rhs}, E (.binary op lhs rhs) ↔ E lhs ∧ E rhs

/-- Whether what a piece gives to a chain has the properties. -/
structure Gives (B : Expr → Prop) (S : Suffix → Prop) (G : UnaryOp × Nat → Prop) (p : Piece) :
    Prop where
  primary : ∀ e, p.primary? = some e → B e
  suffix : ∀ s, p = .suffix s → S s
  sign : ∀ op start, p = .sign op start → G (op, start)

/-- Whether the operands at the end of a chain have a property, and the suffixes before it. -/
structure ChainEnd.Holds (E : Expr → Prop) (S : Suffix → Prop) (e : ChainEnd) : Prop where
  suffixes : ∀ s ∈ e.suffixes, S s
  operand : ∀ o ∈ e.operand, E o.toExpr
  rest : ∀ link ∈ e.rest, E link.2.toExpr

section

variable {B E : Expr → Prop} {S : Suffix → Prop} {G : UnaryOp × Nat → Prop} (hb : Builds B E S G)

include hb

theorem holds_applyAll {suffixes : List Suffix} (hsuffixes : ∀ s ∈ suffixes, S s) {e : Expr}
    (he : B e) : B (suffixes.foldl Suffix.apply e) := by
  induction suffixes generalizing e with
  | nil => exact he
  | cons s suffixes ih =>
    obtain ⟨hs, hrest⟩ := List.forall_mem_cons.mp hsuffixes
    exact ih hrest (hb.apply he hs)

theorem holds_attach {e e' : Expr} (he : E e) (op : BinaryOp) (he' : E e') :
    E (e.attach op e') := by
  fun_induction Expr.attach e op e' with
  | case1 op lhs rhs op' e' h ih =>
    obtain ⟨hlhs, hrhs⟩ := hb.binary.mp he
    exact hb.binary.mpr ⟨hlhs, ih hrhs he'⟩
  | case2 op lhs rhs op' e' h => exact hb.binary.mpr ⟨he, he'⟩
  | case3 lhs op' e' h => exact hb.binary.mpr ⟨he, he'⟩

theorem holds_attachAll {rest : List (BinaryOp × Operand)}
    (hrest : ∀ link ∈ rest, E link.2.toExpr) {e : Expr} (he : E e) :
    E (rest.foldl (fun tree link => tree.attach link.1 link.2.toExpr) e) := by
  induction rest generalizing e with
  | nil => exact he
  | cons link rest ih =>
    obtain ⟨hlink, hrest⟩ := List.forall_mem_cons.mp hrest
    exact ih hrest (holds_attach hb he link.1 hlink)

theorem holds_extendChain {p : Piece} {e e' : ChainEnd} (hp : p.Gives B S G) (he : e.Holds E S)
    (h : p.extendChain e = some e') : e'.Holds E S := by
  obtain ⟨suffixes, operand, rest⟩ := e
  unfold extendChain at h
  split at h
  · obtain rfl := Option.some.inj h
    exact ⟨List.forall_mem_cons.mpr ⟨hp.suffix _ rfl, he.suffixes⟩, nofun, he.rest⟩
  · rename_i op start o hsome
    obtain rfl := Option.some.inj h
    refine ⟨nofun, fun o' ho' => ?_, he.rest⟩
    rw [← Option.some.inj ho']
    exact hb.sign (hp.sign op start rfl) (he.operand o hsome)
  · rename_i op o hsome
    obtain rfl := Option.some.inj h
    exact ⟨nofun, nofun, List.forall_mem_cons.mpr ⟨he.operand o hsome, he.rest⟩⟩
  · obtain ⟨x, hx, rfl⟩ := Option.map_eq_some_iff.mp h
    refine ⟨nofun, fun o ho => ?_, he.rest⟩
    rw [← Option.some.inj ho]
    exact hb.bare (holds_applyAll hb he.suffixes (hp.primary x hx))
  · cases h

theorem holds_chainEnd {ps : List Piece} (hps : ∀ p ∈ ps, p.Gives B S G) {e : ChainEnd}
    (h : chainEnd ps = some e) : e.Holds E S := by
  induction ps generalizing e with
  | nil =>
    obtain rfl := Option.some.inj h
    exact ⟨nofun, nofun, nofun⟩
  | cons p ps ih =>
    obtain ⟨e', he', hextend⟩ := Option.bind_eq_some_iff.mp h
    obtain ⟨hp, hps⟩ := List.forall_mem_cons.mp hps
    exact holds_extendChain hb hp (ih hps he') hextend

/-- **What is kept on the way from a chain to its tree holds of the tree.** -/
theorem holds_of_chain {ps : List Piece} (hps : ∀ p ∈ ps, p.Gives B S G) {c : Chain}
    (h : chain ps = some c) : E c.toExpr := by
  obtain ⟨e, he, hc⟩ := Option.bind_eq_some_iff.mp h
  obtain ⟨o, ho, rfl⟩ := Option.map_eq_some_iff.mp hc
  have hend := holds_chainEnd hb hps he
  exact holds_attachAll hb hend.rest (hend.operand o ho)

end

/-! ### What is found among the pieces -/

section

variable {Q : Piece → Prop} {parts : List Piece} (hparts : ∀ p ∈ parts, Q p)

include hparts

theorem of_findSome? {α : Type} {P : α → Prop} {f : Piece → Option α}
    (hf : ∀ p a, f p = some a → Q p → P a) {a : α} (h : parts.findSome? f = some a) :
    P a := by
  obtain ⟨p, hp, hpa⟩ := List.exists_of_findSome?_eq_some h
  exact hf p a hpa (hparts p hp)

theorem of_filterMap {α : Type} {P : α → Prop} {f : Piece → Option α}
    (hf : ∀ p a, f p = some a → Q p → P a) : ∀ a ∈ parts.filterMap f, P a := by
  intro a ha
  obtain ⟨p, hp, hpa⟩ := List.mem_filterMap.mp ha
  exact hf p a hpa (hparts p hp)

theorem of_find_toList {α : Type} {P : α → Prop} {f : Piece → Option α}
    (hf : ∀ p a, f p = some a → Q p → P a) : ∀ a ∈ (parts.findSome? f).toList, P a :=
  fun _ ha => of_findSome? hparts hf (Option.mem_toList.mp ha)

end

end Piece

end LuaSnippet.Script
