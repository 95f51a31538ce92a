import Mathlib.Data.List.Forall2
import LuaSnippet.Proofs.Script.Made
import LuaSnippet.Proofs.Script.Shape
import LuaSnippet.Proofs.Script.Termination

/-!
# Every text has an answer

A text is either refused or becomes a tree. Matching ends, and where it matches, every node has what
its rule needs within it, so that every node has a piece of the kind of its rule
(`exists_piece`) and the text has statements (`isSome_read?`).
-/

namespace LuaSnippet.Script

open Peg (Cursor Node Derives Context Pattern)

namespace Piece

/-! ### Pieces of a rule -/

/-- Whether a piece is of the kind that a rule makes. -/
def IsOf : Rule → Piece → Prop
  | .keyword k, p => p = .mark (.keyword k)
  | .ident, p => ∃ id, p = .name id
  | .propName, p => ∃ id, p = .prop id
  | .program, p | .block, p => ∃ body span, p = .block body span
  | .declareStmt, p | .interfaceDecl, p | .typeAlias, p | .functionDecl, p | .varStmt, p
  | .forOfStmt, p | .ifStmt, p | .returnStmt, p | .emptyStmt, p | .assignStmt, p
  | .exprStmt, p => ∃ s, p = .stmt s
  | .fnSignature, p | .varSignature, p | .spaceDecl, p => ∃ d, p = .declaration d
  | .varKind, p => ∃ k, p = .kind k
  | .arrayPattern, p => ∃ names, p = .pattern names
  | .assignTarget, p => ∃ e, p = .target e
  | .type, p => ∃ t, p = .type t
  | .expr, p | .arrowFn, p | .parenExpr, p | .arrayLit, p | .objectLit, p | .numberLit, p
  | .trueLit, p | .falseLit, p | .absentLit, p => ∃ e, p = .expr e
  | .unaryOp op, p => ∃ start, p = .sign op start
  | .binaryOp op, p => p = .between op
  | .callArgs, p | .member, p | .nonNull, p => ∃ s, p = .suffix s
  | .property, p => ∃ f, p = .field f
  | .stringLit, p => ∃ value span, p = .string value span
  | .doubleQuoted, p | .singleQuoted, p => ∃ text, p = .raw text
  | _, _ => True

theorem isOf_make {r : Rule} {start stop : Cursor} {parts : List Piece} {p : Piece}
    (h : make r start stop parts = some p) : IsOf r p := by
  cases make_eq_some_iff.mp h with
  | program | block | stringLit => exact ⟨_, _, rfl⟩
  | binaryOp => rfl
  | params | param | returnType | plainArg | spreadArg | bareParams | arrowParams => trivial
  | mark hr =>
    cases r with
    | keyword => rfl
    | _ => trivial
  | _ => exact ⟨_, rfl⟩

/-! ### Pieces of several rules -/

variable {rs : List Rule} {parts : List Piece}

theorem exists_of_mem {r : Rule} (hparts : List.Forall₂ IsOf rs parts) (hr : r ∈ rs) :
    ∃ p ∈ parts, IsOf r p := by
  induction hparts with
  | nil => exact absurd hr List.not_mem_nil
  | cons hp _ ih =>
    rcases List.mem_cons.mp hr with rfl | hr
    · exact ⟨_, List.mem_cons_self, hp⟩
    · obtain ⟨p, hmem, hp⟩ := ih hr
      exact ⟨p, List.mem_cons_of_mem _ hmem, hp⟩

theorem exists_findSome? {α : Type} {r : Rule} (hparts : List.Forall₂ IsOf rs parts) (hr : r ∈ rs)
    {f : Piece → Option α} (hf : ∀ p, IsOf r p → ∃ a, f p = some a) :
    ∃ a, parts.findSome? f = some a := by
  obtain ⟨p, hmem, hp⟩ := exists_of_mem hparts hr
  obtain ⟨a, ha⟩ := hf p hp
  apply Option.isSome_iff_exists.mp
  exact List.findSome?_isSome_iff.mpr ⟨p, hmem, by rw [ha]; rfl⟩

theorem forall₂_append {xs ys : List Rule} (h : List.Forall₂ IsOf (xs ++ ys) parts) :
    ∃ ps qs, parts = ps ++ qs ∧ List.Forall₂ IsOf xs ps ∧ List.Forall₂ IsOf ys qs := by
  induction xs generalizing parts with
  | nil => exact ⟨[], parts, rfl, .nil, h⟩
  | cons x xs ih =>
    obtain ⟨p, rest, hp, hrest, rfl⟩ := List.forall₂_cons_left_iff.mp h
    obtain ⟨ps, qs, rfl, hps, hqs⟩ := ih hrest
    exact ⟨p :: ps, qs, rfl, .cons hp hps, hqs⟩

theorem stmt?_of_isStatement {r : Rule} (hr : r.isStatement = true) (p : Piece) (hp : IsOf r p) :
    ∃ s, p.stmt? = some s := by
  cases r with
  | block =>
    obtain ⟨body, span, rfl⟩ := hp
    exact ⟨_, rfl⟩
  | declareStmt | interfaceDecl | typeAlias | functionDecl | varStmt | forOfStmt | ifStmt
  | returnStmt | emptyStmt | assignStmt | exprStmt =>
    obtain ⟨s, rfl⟩ := hp
    exact ⟨s, rfl⟩
  | _ => cases hr

theorem declaration?_of_isDeclaration {r : Rule} (hr : r.isDeclaration = true) (p : Piece)
    (hp : IsOf r p) : ∃ d, p.declaration? = some d := by
  cases r with
  | fnSignature | varSignature | spaceDecl =>
    obtain ⟨d, rfl⟩ := hp
    exact ⟨d, rfl⟩
  | _ => cases hr

theorem binding?_of_isBinding {r : Rule} (hr : r.isBinding = true) (p : Piece) (hp : IsOf r p) :
    ∃ b, p.binding? = some b := by
  cases r with
  | ident | arrayPattern =>
    obtain ⟨names, rfl⟩ := hp
    exact ⟨_, rfl⟩
  | _ => cases hr

theorem primary?_of_isPrimary {r : Rule} (hr : r.isPrimary = true) (p : Piece) (hp : IsOf r p) :
    ∃ e, p.primary? = some e := by
  cases r with
  | stringLit =>
    obtain ⟨value, span, rfl⟩ := hp
    exact ⟨_, rfl⟩
  | ident | arrowFn | parenExpr | arrayLit | objectLit | numberLit | trueLit | falseLit
  | absentLit =>
    obtain ⟨e, rfl⟩ := hp
    exact ⟨_, rfl⟩
  | _ => cases hr

theorem kindOf_of_introducesVariable {r : Rule} (hr : r.introducesVariable = true) (p : Piece)
    (hp : IsOf r p) : ∃ k, kindOf p = some k := by
  cases r with
  | keyword k =>
    obtain rfl : p = .mark (.keyword k) := hp
    cases k with
    | const | «let» | var => exact ⟨_, rfl⟩
    | _ => cases hr
  | _ => cases hr

/-! ### Chains -/

theorem chainEnd_suffixes (hrs : ∀ r ∈ rs, r.isSuffix = true)
    (hparts : List.Forall₂ IsOf rs parts) {others : List Piece} {links : List (BinaryOp × Operand)}
    (hothers : chainEnd others = some ⟨[], none, links⟩) :
    ∃ suffixes, chainEnd (parts ++ others) = some ⟨suffixes, none, links⟩ := by
  induction hparts with
  | nil => exact ⟨[], hothers⟩
  | @cons r p rs ps hp hps ih =>
    obtain ⟨hr, hrs⟩ := List.forall_mem_cons.mp hrs
    obtain ⟨suffixes, hend⟩ := ih hrs
    have hsuffix : ∃ s, p = .suffix s := by
      cases r with
      | callArgs | member | nonNull => exact hp
      | _ => cases hr
    obtain ⟨s, rfl⟩ := hsuffix
    refine ⟨s :: suffixes, ?_⟩
    rw [List.cons_append, chainEnd, hend]
    rfl

theorem chainEnd_signs (hrs : ∀ r ∈ rs, r.isSign = true) (hparts : List.Forall₂ IsOf rs parts)
    {others : List Piece} {o : Operand} {links : List (BinaryOp × Operand)}
    (hothers : chainEnd others = some ⟨[], some o, links⟩) :
    ∃ o', chainEnd (parts ++ others) = some ⟨[], some o', links⟩ := by
  induction hparts with
  | nil => exact ⟨o, hothers⟩
  | @cons r p rs ps hp hps ih =>
    obtain ⟨hr, hrs⟩ := List.forall_mem_cons.mp hrs
    obtain ⟨o', hend⟩ := ih hrs
    have hsign : ∃ op start, p = .sign op start := by
      cases r with
      | unaryOp op => exact ⟨op, hp⟩
      | _ => cases hr
    obtain ⟨op, start, rfl⟩ := hsign
    refine ⟨⟨(op, start) :: o'.signs, o'.primary, o'.suffixes⟩, ?_⟩
    rw [List.cons_append, chainEnd, hend]
    rfl

theorem extendChain_primary {p : Piece} {e : Expr} (hp : p.primary? = some e)
    (suffixes : List Suffix) (links : List (BinaryOp × Operand)) :
    extendChain p ⟨suffixes, none, links⟩ = some ⟨[], some ⟨[], e, suffixes⟩, links⟩ := by
  cases p with
  | name | string | expr =>
    obtain rfl := Option.some.inj hp
    rfl
  | _ => cases hp

theorem chainEnd_operand (hrs : Rule.IsOperand rs) (hparts : List.Forall₂ IsOf rs parts)
    {others : List Piece} {links : List (BinaryOp × Operand)}
    (hothers : chainEnd others = some ⟨[], none, links⟩) :
    ∃ o, chainEnd (parts ++ others) = some ⟨[], some o, links⟩ := by
  obtain ⟨signs, r, suffixes, rfl, hsigns, hr, hsuffixes⟩ := hrs
  obtain ⟨ps, qs, rfl, hps, hqs⟩ := forall₂_append hparts
  obtain ⟨p, behind, hp, hbehind, rfl⟩ := List.forall₂_cons_left_iff.mp hqs
  obtain ⟨e, he⟩ := primary?_of_isPrimary hr p hp
  obtain ⟨ends, hends⟩ := chainEnd_suffixes hsuffixes hbehind hothers
  rw [List.append_assoc, List.cons_append]
  apply chainEnd_signs hsigns hps (o := ⟨[], e, ends⟩)
  rw [chainEnd, hends, Option.bind_some, extendChain_primary he]

theorem chainEnd_links {links : List (List Rule)} (hlinks : ∀ l ∈ links, Rule.IsLink l)
    (hparts : List.Forall₂ IsOf links.flatten parts) :
    ∃ rest, chainEnd parts = some ⟨[], none, rest⟩ := by
  induction links generalizing parts with
  | nil =>
    obtain rfl := List.forall₂_nil_left_iff.mp hparts
    exact ⟨[], rfl⟩
  | cons l links ih =>
    obtain ⟨⟨op, rs, rfl, hrs⟩, hothers⟩ := List.forall_mem_cons.mp hlinks
    rw [List.flatten_cons, List.cons_append] at hparts
    obtain ⟨p, behind, hp, hbehind, rfl⟩ := List.forall₂_cons_left_iff.mp hparts
    obtain rfl : p = .between op := hp
    obtain ⟨ps, qs, rfl, hps, hqs⟩ := forall₂_append hbehind
    obtain ⟨rest, hrest⟩ := ih hothers hqs
    obtain ⟨o, ho⟩ := chainEnd_operand hrs hps hrest
    refine ⟨(op, o) :: rest, ?_⟩
    rw [chainEnd, ho]
    rfl

/-- The pieces of an expression form a chain. -/
theorem exists_chain (hrs : Rule.expr.Fits rs) (hparts : List.Forall₂ IsOf rs parts) :
    ∃ c, chain parts = some c := by
  obtain ⟨o, links, rfl, ho, hlinks⟩ := hrs
  obtain ⟨ps, qs, rfl, hps, hqs⟩ := forall₂_append hparts
  obtain ⟨rest, hrest⟩ := chainEnd_links hlinks hqs
  obtain ⟨o', ho'⟩ := chainEnd_operand ho hps hrest
  refine ⟨⟨o', rest⟩, ?_⟩
  rw [chain, ho']
  rfl

/-! ### Conditionals -/

theorem mem_of_significant {r : Rule} (hr : r ∈ Rule.significant rs) : r ∈ rs :=
  (List.mem_filter.mp hr).1

theorem length_filterMap_stmt? (hparts : List.Forall₂ IsOf rs parts)
    (hrs : ∀ r ∈ rs, r.isKeyword = true ∨ r = .expr ∨ r.isStatement = true) :
    (parts.filterMap stmt?).length = (rs.filter Rule.isStatement).length := by
  induction hparts with
  | nil => rfl
  | @cons r p rs ps hp _ ih =>
    obtain ⟨hr, hothers⟩ := List.forall_mem_cons.mp hrs
    rcases hr with hr | rfl | hr
    · cases r with
      | keyword k =>
        obtain rfl : p = .mark (.keyword k) := hp
        exact ih hothers
      | _ => cases hr
    · obtain ⟨e, rfl⟩ := hp
      exact ih hothers
    · obtain ⟨s, hs⟩ := stmt?_of_isStatement hr p hp
      rw [List.filterMap_cons_some hs, List.filter_cons_of_pos hr, List.length_cons,
        List.length_cons, ih hothers]

theorem exists_branches (hrs : Rule.ifStmt.Fits rs) (hparts : List.Forall₂ IsOf rs parts) :
    ∃ (t : Stmt) (other : Option Stmt), parts.filterMap stmt? = t :: other.toList := by
  obtain ⟨s, others, hsignificant, hs, hothers⟩ := hrs
  have hlength : (parts.filterMap stmt?).length = (rs.filter Rule.isStatement).length := by
    apply length_filterMap_stmt? hparts
    intro r hr
    by_cases hkeyword : r.isKeyword = true
    · exact .inl hkeyword
    · have hmem : r ∈ Rule.significant rs := List.mem_filter.mpr ⟨hr, by simp [hkeyword]⟩
      rw [hsignificant] at hmem
      rcases List.mem_cons.mp hmem with rfl | hmem
      · exact .inr (.inl rfl)
      rcases List.mem_cons.mp hmem with rfl | hmem
      · exact .inr (.inr hs)
      rcases hothers with rfl | ⟨s', rfl, hs'⟩
      · exact absurd hmem List.not_mem_nil
      · rw [List.mem_singleton.mp hmem]
        exact .inr (.inr hs')
  have hstmts : rs.filter Rule.isStatement = s :: others := by
    have hfilter : (Rule.significant rs).filter Rule.isStatement = rs.filter Rule.isStatement := by
      rw [Rule.significant, List.filter_filter]
      apply List.filter_congr
      intro r _
      cases r <;> rfl
    rw [← hfilter, hsignificant, List.filter_cons_of_neg (by decide), List.filter_cons_of_pos hs]
    rcases hothers with rfl | ⟨s', rfl, hs'⟩
    · rfl
    · rw [List.filter_cons_of_pos hs']
      rfl
  rw [hstmts] at hlength
  rcases hothers with rfl | ⟨s', rfl, -⟩
  · obtain ⟨t, ht⟩ := List.length_eq_one_iff.mp hlength
    exact ⟨t, none, ht⟩
  · obtain ⟨t, e, hte⟩ := List.length_eq_two.mp hlength
    exact ⟨t, some e, hte⟩

/-! ### Making pieces -/

section

variable (hparts : List.Forall₂ IsOf rs parts)

include hparts

theorem exists_name? (h : Rule.ident ∈ rs) : ∃ id, parts.findSome? name? = some id :=
  exists_findSome? hparts h (by rintro _ ⟨id, rfl⟩; exact ⟨id, rfl⟩)

theorem exists_prop? (h : Rule.propName ∈ rs) : ∃ id, parts.findSome? prop? = some id :=
  exists_findSome? hparts h (by rintro _ ⟨id, rfl⟩; exact ⟨id, rfl⟩)

theorem exists_type? (h : Rule.type ∈ rs) : ∃ t, parts.findSome? type? = some t :=
  exists_findSome? hparts h (by rintro _ ⟨t, rfl⟩; exact ⟨t, rfl⟩)

theorem exists_expr? (h : Rule.expr ∈ rs) : ∃ e, parts.findSome? expr? = some e :=
  exists_findSome? hparts h (by rintro _ ⟨e, rfl⟩; exact ⟨e, rfl⟩)

theorem exists_block? (h : Rule.block ∈ rs) : ∃ b, parts.findSome? block? = some b :=
  exists_findSome? hparts h (by rintro _ ⟨body, span, rfl⟩; exact ⟨_, rfl⟩)

theorem exists_kind? (h : Rule.varKind ∈ rs) : ∃ k, parts.findSome? kind? = some k :=
  exists_findSome? hparts h (by rintro _ ⟨k, rfl⟩; exact ⟨k, rfl⟩)

theorem exists_target? (h : Rule.assignTarget ∈ rs) : ∃ e, parts.findSome? target? = some e :=
  exists_findSome? hparts h (by rintro _ ⟨e, rfl⟩; exact ⟨e, rfl⟩)

theorem exists_raw? (hrs : Rule.stringLit.Fits rs) : ∃ text, parts.findSome? raw? = some text := by
  rcases hrs with rfl | rfl
  · exact exists_findSome? hparts List.mem_cons_self (by rintro _ ⟨t, rfl⟩; exact ⟨t, rfl⟩)
  · exact exists_findSome? hparts List.mem_cons_self (by rintro _ ⟨t, rfl⟩; exact ⟨t, rfl⟩)

theorem exists_function (hrs : Rule.arrowFn.Fits rs) (start stop : Cursor) :
    ∃ p, Made start stop parts .arrowFn p := by
  obtain ⟨rest, rfl, hbody⟩ := hrs
  cases hb : parts.findSome? block? with
  | some b => exact ⟨_, .closure hb⟩
  | none =>
    have hexpr : Rule.expr ∈ rest := by
      rcases hbody with hbody | hbody
      · obtain ⟨b, hb'⟩ := exists_block? hparts (List.mem_cons_of_mem _ hbody)
        rw [hb] at hb'
        cases hb'
      · exact hbody
    obtain ⟨e, he⟩ := exists_expr? hparts (List.mem_cons_of_mem _ hexpr)
    exact ⟨_, .arrow hb he⟩

theorem exists_property (hrs : Rule.property.Fits rs) (start stop : Cursor) :
    ∃ p, Made start stop parts .property p := by
  rcases hrs with rfl | rfl | rfl
  · obtain ⟨_, _, ⟨id, rfl⟩, hnil, rfl⟩ := List.forall₂_cons_left_iff.mp hparts
    obtain rfl := List.forall₂_nil_left_iff.mp hnil
    exact ⟨_, .shortProperty rfl⟩
  · obtain ⟨_, _, ⟨id, rfl⟩, hvalue, rfl⟩ := List.forall₂_cons_left_iff.mp hparts
    obtain ⟨_, _, ⟨e, rfl⟩, hnil, rfl⟩ := List.forall₂_cons_left_iff.mp hvalue
    obtain rfl := List.forall₂_nil_left_iff.mp hnil
    exact ⟨_, .namedProperty rfl⟩
  · obtain ⟨_, _, ⟨key, span, rfl⟩, hvalue, rfl⟩ := List.forall₂_cons_left_iff.mp hparts
    obtain ⟨_, _, ⟨e, rfl⟩, hnil, rfl⟩ := List.forall₂_cons_left_iff.mp hvalue
    obtain rfl := List.forall₂_nil_left_iff.mp hnil
    exact ⟨_, .quotedProperty rfl⟩

/-- **A node whose children fit its rule has a piece.** -/
theorem isSome_make {r : Rule} (hrs : r.Fits rs) (start stop : Cursor) :
    (make r start stop parts).isSome = true := by
  suffices h : ∃ p, Made start stop parts r p by
    obtain ⟨p, hp⟩ := h
    exact Option.isSome_iff_exists.mpr ⟨p, make_eq_some_iff.mpr hp⟩
  cases r with
  | declareStmt =>
    obtain ⟨d, hsignificant, hd⟩ := hrs
    have hmem : d ∈ rs := mem_of_significant (by simp [hsignificant])
    obtain ⟨x, hx⟩ := exists_findSome? hparts hmem (declaration?_of_isDeclaration hd)
    exact ⟨_, .declareStmt hx⟩
  | fnSignature =>
    obtain ⟨rest, hsignificant⟩ := hrs
    obtain ⟨id, hid⟩ := exists_prop? hparts (mem_of_significant (by simp [hsignificant]))
    exact ⟨_, .fnSignature hid⟩
  | varSignature =>
    obtain rfl : rs = _ := hrs
    obtain ⟨id, hid⟩ := exists_prop? hparts (by simp)
    obtain ⟨t, ht⟩ := exists_type? hparts (by simp)
    exact ⟨_, .varSignature hid ht⟩
  | spaceDecl =>
    obtain ⟨ds, hsignificant, -⟩ := hrs
    obtain ⟨id, hid⟩ := exists_name? hparts (mem_of_significant (by simp [hsignificant]))
    exact ⟨_, .spaceDecl hid⟩
  | functionDecl =>
    obtain ⟨rest, hsignificant, hbody⟩ := hrs
    obtain ⟨id, hid⟩ := exists_name? hparts (mem_of_significant (by simp [hsignificant]))
    obtain ⟨b, hb⟩ := exists_block? hparts (mem_of_significant (by simp [hsignificant, hbody]))
    exact ⟨_, .functionDecl hid hb⟩
  | varStmt =>
    obtain ⟨b, rest, rfl, hb⟩ := hrs
    have hmem : b ∈ Rule.varKind :: b :: rest := by simp
    obtain ⟨k, hk⟩ := exists_kind? hparts List.mem_cons_self
    obtain ⟨x, hx⟩ := exists_findSome? hparts hmem (binding?_of_isBinding hb)
    exact ⟨_, .varStmt hk hx⟩
  | varKind =>
    obtain ⟨k, rfl, hk⟩ := hrs
    obtain ⟨x, hx⟩ := exists_findSome? hparts List.mem_cons_self (kindOf_of_introducesVariable hk)
    exact ⟨_, .varKind hx⟩
  | forOfStmt =>
    obtain ⟨b, s, hsignificant, hb, hs⟩ := hrs
    have hmem : b ∈ rs ∧ s ∈ rs :=
      ⟨mem_of_significant (by simp [hsignificant]), mem_of_significant (by simp [hsignificant])⟩
    obtain ⟨x, hx⟩ := exists_findSome? hparts hmem.1 (binding?_of_isBinding hb)
    obtain ⟨e, he⟩ := exists_expr? hparts (mem_of_significant (by simp [hsignificant]))
    obtain ⟨t, ht⟩ := exists_findSome? hparts hmem.2 (stmt?_of_isStatement hs)
    exact ⟨_, .forOfStmt hx he ht⟩
  | ifStmt =>
    obtain ⟨t, other, hbranches⟩ := exists_branches hrs hparts
    obtain ⟨s, others, hsignificant, -⟩ := hrs
    obtain ⟨test, htest⟩ := exists_expr? hparts (mem_of_significant (by simp [hsignificant]))
    exact ⟨_, .ifStmt htest hbranches⟩
  | assignStmt =>
    obtain rfl : rs = _ := hrs
    obtain ⟨t, ht⟩ := exists_target? hparts List.mem_cons_self
    obtain ⟨e, he⟩ := exists_expr? hparts (by simp)
    exact ⟨_, .assignStmt ht he⟩
  | assignTarget =>
    obtain ⟨members, rfl, -⟩ := hrs
    obtain ⟨_, behind, ⟨id, rfl⟩, -, rfl⟩ := List.forall₂_cons_left_iff.mp hparts
    exact ⟨_, .assignTarget rfl⟩
  | exprStmt =>
    obtain rfl : rs = _ := hrs
    obtain ⟨e, he⟩ := exists_expr? hparts (by simp)
    exact ⟨_, .exprStmt he⟩
  | parenExpr =>
    obtain rfl : rs = _ := hrs
    obtain ⟨e, he⟩ := exists_expr? hparts (by simp)
    exact ⟨_, .parenExpr he⟩
  | param =>
    obtain ⟨id, hid⟩ := exists_prop? hparts hrs
    exact ⟨_, .param hid⟩
  | returnType =>
    obtain rfl : rs = _ := hrs
    obtain ⟨t, ht⟩ := exists_type? hparts (by simp)
    exact ⟨_, .returnType ht⟩
  | expr =>
    obtain ⟨c, hc⟩ := exists_chain hrs hparts
    exact ⟨_, .expr hc⟩
  | member =>
    obtain rfl : rs = _ := hrs
    obtain ⟨id, hid⟩ := exists_prop? hparts (by simp)
    exact ⟨_, .member hid⟩
  | arg =>
    obtain ⟨e, he⟩ := exists_expr? hparts (by rcases hrs with rfl | rfl <;> simp)
    cases hspread : parts.any (isMark .spread) with
    | false => exact ⟨_, .plainArg hspread he⟩
    | true => exact ⟨_, .spreadArg hspread he⟩
  | arrowFn => exact exists_function hparts hrs start stop
  | property => exact exists_property hparts hrs start stop
  | stringLit =>
    obtain ⟨text, htext⟩ := exists_raw? hparts hrs
    exact ⟨_, .stringLit htext⟩
  | _ => exact ⟨_, make_eq_some_iff.mp rfl⟩

end

end Piece

/-! ### Reading -/

theorem ofNodes_append {xs ys : List (Node Rule)} {parts : List Piece}
    (h : Piece.ofNodes (xs ++ ys) = some parts) :
    ∃ ps qs, parts = ps ++ qs ∧ Piece.ofNodes xs = some ps ∧ Piece.ofNodes ys = some qs := by
  induction xs generalizing parts with
  | nil => exact ⟨[], parts, rfl, rfl, h⟩
  | cons x xs ih =>
    obtain ⟨p, hp, hmap⟩ := Option.bind_eq_some_iff.mp h
    obtain ⟨rest, hrest, rfl⟩ := Option.map_eq_some_iff.mp hmap
    obtain ⟨ps, qs, rfl, hps, hqs⟩ := ih hrest
    refine ⟨p :: ps, qs, rfl, ?_, hqs⟩
    rw [Piece.ofNodes, hp, hps]
    rfl

/-- **Every node that the grammar gives has a piece**, of the kind of its rule. -/
theorem exists_piece {x : Node Rule} (hx : x.IsDerived grammar) :
    ∃ p, Piece.ofNode x = some p ∧ Piece.IsOf x.rule p := by
  induction hx with
  | @mk ctx r start stop xs hnode hbody hwithin ih =>
    have hpieces : ∀ ys : List (Node Rule),
        (∀ y ∈ ys, ∃ p, Piece.ofNode y = some p ∧ Piece.IsOf y.rule p) →
        ∃ ps, Piece.ofNodes ys = some ps ∧ List.Forall₂ Piece.IsOf (ys.map Node.rule) ps := by
      intro ys hys
      induction ys with
      | nil => exact ⟨[], rfl, .nil⟩
      | cons y ys ihys =>
        obtain ⟨⟨p, hp, hof⟩, hys⟩ := List.forall_mem_cons.mp hys
        obtain ⟨ps, hps, hofs⟩ := ihys hys
        refine ⟨p :: ps, ?_, .cons hof hofs⟩
        rw [Piece.ofNodes, hp, hps]
        rfl
    obtain ⟨parts, hparts, hof⟩ := hpieces xs ih
    have hfits : r.Fits (xs.map Node.rule) :=
      fits_of_derived (.mk hnode hbody hwithin : (Node.mk r start stop xs).IsDerived grammar)
    obtain ⟨p, hp⟩ := Option.isSome_iff_exists.mp (Piece.isSome_make hof hfits start stop)
    refine ⟨p, ?_, Piece.isOf_make hp⟩
    rw [Piece.ofNode, hparts, Option.bind_some, hp]

theorem eq_program_of_parse {text : List Char} {nodes : List (Node Rule)} {stop : Cursor}
    {log : Peg.Attempts Rule} (h : grammar.parse .program text = .matched nodes stop log) :
    ∃ x, nodes = [x] ∧ x.rule = .program ∧ x.IsDerived grammar := by
  have hder := Peg.Grammar.derives_of_run h
  have hrules := hder.leaves shapes_grammar rfl
  obtain ⟨x, rfl, hx⟩ := List.map_eq_singleton_iff.mp hrules
  exact ⟨x, rfl, hx, hder.isDerived x List.mem_cons_self⟩

/-- **Every text is read**: it is refused for a reason, or it has statements. -/
theorem isSome_read? (text : String) : (read? text).isSome = true := by
  have hfinished := finished_parse text.toList
  unfold read?
  split
  · rename_i nodes stop log hmatched
    obtain ⟨x, rfl, hrule, hx⟩ := eq_program_of_parse hmatched
    obtain ⟨p, hp, hof⟩ := exists_piece hx
    rw [hrule] at hof
    obtain ⟨body, span, rfl⟩ := hof
    have hpieces : Piece.ofNodes [x] = some [.block body span] := by
      rw [Piece.ofNodes, hp]
      rfl
    rw [statementsOf, hpieces]
    rfl
  · rfl
  · rename_i hunfinished
    rw [hunfinished] at hfinished
    exact hfinished.elim

end LuaSnippet.Script
