import LuaSnippet.Proofs.Script.Soundness
import LuaSnippet.Proofs.Script.Termination

/-!
# Places in a tree

Every byte offset in a tree is taken from a node of the match: where it starts, or where it ends. Some
are taken from other nodes than the one whose tree it is: a call starts where its callee does, and an
operation ends where its operand does. So what holds of the places of all nodes holds of all offsets
in the tree (`Piece.placed_make`), and the offsets in the tree of a text are boundaries of the text
(`placed_of_read`). So is the place of a refusal (`isBoundary_of_refused`).
-/

namespace LuaSnippet.Script

open Peg (Cursor Node)

/-! ### Offsets of a phrase -/

namespace Phrase

/-- The spans that a phrase carries itself, those of its parts left aside. -/
def spans : Phrase → List Span
  | expr (.number _ s) | expr (.string _ s) | expr (.bool _ s) | expr (.absent s)
  | expr (.array _ s) | expr (.object _ s) | expr (.call _ _ s) | expr (.paren _ s)
  | expr (.unary _ _ s) | expr (.arrow _ _ s) | expr (.closure _ _ s) => [s]
  | expr (.ident id) | expr (.member _ id) => [id.span]
  | expr (.nonNull _) | expr (.binary _ _ _) | stmt (.expr _) => []
  | stmt (.bind _ b _ s) | stmt (.forOf b _ _ s) => s :: b.names.map (·.span)
  | stmt (.function name _ _ s) => [name.span, s]
  | stmt (.assign _ _ s) | stmt (.cond _ _ _ s) | stmt (.result _ s) | stmt (.block _ s)
  | stmt (.declare _ s) | stmt (.typeOnly s) | stmt (.empty s) => [s]

end Phrase

/-- Whether both ends of a span have a property. -/
def Span.IsPlaced (P : Nat → Prop) (s : Span) : Prop := P s.start ∧ P s.stop

/-- Whether the offsets of a phrase have a property, with those of everything within it. -/
inductive Phrase.Placed (P : Nat → Prop) : Phrase → Prop where
  | mk {x : Phrase} (h : ∀ s ∈ x.spans, s.IsPlaced P) (hparts : ∀ y ∈ x.parts, Placed P y) :
    Placed P x

abbrev Expr.Placed (P : Nat → Prop) (e : Expr) : Prop := (Phrase.expr e).Placed P

abbrev Stmt.Placed (P : Nat → Prop) (s : Stmt) : Prop := (Phrase.stmt s).Placed P

variable {P : Nat → Prop}

namespace Phrase.Placed

theorem of_mem_spans {x : Phrase} (h : x.Placed P) {s : Span} (hs : s ∈ x.spans) :
    s.IsPlaced P := by
  cases h with
  | mk h _ => exact h s hs

theorem of_mem_parts {x y : Phrase} (h : x.Placed P) (hy : y ∈ x.parts) : y.Placed P := by
  cases h with
  | mk _ hparts => exact hparts y hy

theorem of_span {x : Phrase} {s : Span} (hspans : x.spans = [s]) (hparts : x.parts = [])
    (hs : s.IsPlaced P) : x.Placed P := by
  refine .mk ?_ ?_
  · rw [hspans]
    exact List.forall_mem_singleton.mpr hs
  · simp [hparts]

end Phrase.Placed

theorem placed_binary {op : BinaryOp} {lhs rhs : Expr} :
    (Expr.binary op lhs rhs).Placed P ↔ lhs.Placed P ∧ rhs.Placed P := by
  constructor
  · intro h
    exact ⟨h.of_mem_parts (by simp [Phrase.parts]), h.of_mem_parts (by simp [Phrase.parts])⟩
  · rintro ⟨hlhs, hrhs⟩
    exact .mk (by simp [Phrase.spans]) (by simp [Phrase.parts, hlhs, hrhs])

theorem isPlaced_span : ∀ {e : Expr}, e.Placed P → e.span.IsPlaced P
  | .number _ _, h | .string _ _, h | .bool _ _, h | .absent _, h | .array _ _, h
  | .object _ _, h | .call _ _ _, h | .paren _ _, h | .unary _ _ _, h | .arrow _ _ _, h
  | .closure _ _ _, h | .ident _, h => h.of_mem_spans List.mem_cons_self
  | .member owner property, h =>
    have howner : owner.span.IsPlaced P := isPlaced_span (h.of_mem_parts List.mem_cons_self)
    have hproperty : property.span.IsPlaced P := h.of_mem_spans List.mem_cons_self
    ⟨howner.1, hproperty.2⟩
  | .nonNull inner, h => isPlaced_span (e := inner) (h.of_mem_parts List.mem_cons_self)
  | .binary _ _ _, h =>
    have hparts := placed_binary.mp h
    ⟨(isPlaced_span hparts.1).1, (isPlaced_span hparts.2).2⟩

/-! ### Chains -/

/-- Whether the offsets of a suffix have a property. -/
def Suffix.Placed (P : Nat → Prop) : Suffix → Prop
  | .call args stop => P stop ∧ ∀ a ∈ args, a.value.Placed P
  | .member property => property.span.IsPlaced P
  | .nonNull => True

theorem placed_apply {e : Expr} (he : e.Placed P) {s : Suffix} (hs : s.Placed P) :
    (s.apply e).Placed P := by
  cases s with
  | call args stop =>
    have hspan : Span.IsPlaced P ⟨e.span.start, stop⟩ := ⟨(isPlaced_span he).1, hs.1⟩
    refine .mk (List.forall_mem_singleton.mpr hspan) (List.forall_mem_cons.mpr ⟨he, ?_⟩)
    exact List.forall_mem_map.mpr hs.2
  | member property =>
    exact .mk (List.forall_mem_singleton.mpr hs) (List.forall_mem_singleton.mpr he)
  | nonNull => exact .mk (List.forall_mem_nil _) (List.forall_mem_singleton.mpr he)

theorem placed_builds :
    Piece.Builds (Expr.Placed P) (Expr.Placed P) (Suffix.Placed P) fun s => P s.2 where
  apply he hs := placed_apply he hs
  bare he := he
  sign hs he := .mk (List.forall_mem_singleton.mpr ⟨hs, (isPlaced_span he).2⟩)
    (List.forall_mem_singleton.mpr he)
  binary := placed_binary

/-! ### Pieces -/

namespace Piece

/-- Whether the offsets in what a piece holds have a property. -/
def Placed (P : Nat → Prop) : Piece → Prop
  | name id | prop id => id.span.IsPlaced P
  | string _ span => span.IsPlaced P
  | pattern names => ∀ id ∈ names, id.span.IsPlaced P
  | stmt s => s.Placed P
  | block body span => span.IsPlaced P ∧ ∀ s ∈ body, s.Placed P
  | target e | expr e => e.Placed P
  | sign _ start => P start
  | suffix s => s.Placed P
  | arg a => a.value.Placed P
  | field f => f.value.Placed P
  | _ => True

theorem placed_expr? (p : Piece) (e : Expr) (h : p.expr? = some e) (hp : p.Placed P) :
    e.Placed P := by
  cases p <;> simp_all [expr?, Placed]

theorem placed_target? (p : Piece) (e : Expr) (h : p.target? = some e) (hp : p.Placed P) :
    e.Placed P := by
  cases p <;> simp_all [target?, Placed]

theorem placed_arg? (p : Piece) (a : Arg) (h : p.arg? = some a) (hp : p.Placed P) :
    a.value.Placed P := by
  cases p <;> simp_all [arg?, Placed]

theorem placed_field? (p : Piece) (f : Field) (h : p.field? = some f) (hp : p.Placed P) :
    f.value.Placed P := by
  cases p <;> simp_all [field?, Placed]

theorem placed_name? (p : Piece) (id : Ident) (h : p.name? = some id) (hp : p.Placed P) :
    id.span.IsPlaced P := by
  cases p <;> simp_all [name?, Placed]

theorem placed_prop? (p : Piece) (id : Ident) (h : p.prop? = some id) (hp : p.Placed P) :
    id.span.IsPlaced P := by
  cases p <;> simp_all [prop?, Placed]

theorem placed_stmt? (p : Piece) (s : Stmt) (h : p.stmt? = some s) (hp : p.Placed P) :
    s.Placed P := by
  cases p with
  | stmt =>
    obtain rfl := Option.some.inj h
    exact hp
  | block body span =>
    obtain rfl := Option.some.inj h
    exact .mk (List.forall_mem_singleton.mpr hp.1) (List.forall_mem_map.mpr hp.2)
  | _ => cases h

theorem placed_block? (p : Piece) (b : List Stmt × Span) (h : p.block? = some b)
    (hp : p.Placed P) : ∀ s ∈ b.1, s.Placed P := by
  cases p with
  | block body span =>
    obtain rfl := Option.some.inj h
    exact hp.2
  | _ => cases h

theorem placed_binding? (p : Piece) (b : Binding) (h : p.binding? = some b) (hp : p.Placed P) :
    ∀ id ∈ b.names, id.span.IsPlaced P := by
  cases p with
  | name =>
    obtain rfl := Option.some.inj h
    exact List.forall_mem_singleton.mpr hp
  | pattern =>
    obtain rfl := Option.some.inj h
    exact hp
  | _ => cases h

theorem placed_ident {id : Ident} (h : id.span.IsPlaced P) : (Expr.ident id).Placed P :=
  .of_span rfl rfl h

theorem placed_primary? {p : Piece} (hp : p.Placed P) {e : Expr} (h : p.primary? = some e) :
    e.Placed P := by
  cases p with
  | expr =>
    obtain rfl := Option.some.inj h
    exact hp
  | name =>
    obtain rfl := Option.some.inj h
    exact placed_ident hp
  | string =>
    obtain rfl := Option.some.inj h
    exact .of_span rfl rfl hp
  | _ => cases h

theorem placed_members {ids : List Ident} (hids : ∀ id ∈ ids, id.span.IsPlaced P) {e : Expr}
    (he : e.Placed P) : (ids.foldl .member e).Placed P := by
  induction ids generalizing e with
  | nil => exact he
  | cons id ids ih =>
    obtain ⟨hid, hids⟩ := List.forall_mem_cons.mp hids
    exact ih hids (placed_apply he (s := .member id) hid)

/-- **The offsets of a piece are places of the node and of what stands within it.** -/
theorem placed_make {rule : Rule} {start stop : Cursor} {parts : List Piece}
    (hparts : ∀ p ∈ parts, p.Placed P) (hstart : P start.offset) (hstop : P stop.offset) {p : Piece}
    (h : make rule start stop parts = some p) : p.Placed P := by
  have hspan : Span.IsPlaced P ⟨start.offset, stop.offset⟩ := ⟨hstart, hstop⟩
  have hown : ∀ s ∈ [(⟨start.offset, stop.offset⟩ : Span)], s.IsPlaced P :=
    List.forall_mem_singleton.mpr hspan
  have hexpr {e : Expr} (he : parts.findSome? expr? = some e) : e.Placed P :=
    of_findSome? hparts placed_expr? he
  have hstmts : ∀ s ∈ parts.filterMap stmt?, s.Placed P := of_filterMap hparts placed_stmt?
  have hvalue : ∀ e ∈ (parts.findSome? expr?).toList, e.Placed P :=
    of_find_toList hparts placed_expr?
  cases make_eq_some_iff.mp h with
  | ident | propName | stringLit => exact hspan
  | program | block => exact ⟨hspan, hstmts⟩
  | declareStmt | interfaceDecl | typeAlias | emptyStmt | numberLit | trueLit | falseLit
  | absentLit => exact .of_span rfl rfl hspan
  | functionDecl hid hb =>
    exact .mk (List.forall_mem_cons.mpr ⟨of_findSome? hparts placed_name? hid, hown⟩)
      (List.forall_mem_map.mpr (of_findSome? hparts placed_block? hb))
  | varStmt _ hb =>
    have hnames := of_findSome? hparts placed_binding? hb
    exact .mk (List.forall_mem_cons.mpr ⟨hspan, List.forall_mem_map.mpr hnames⟩)
      (List.forall_mem_map.mpr hvalue)
  | arrayPattern => exact of_filterMap hparts placed_name?
  | forOfStmt hb he hs =>
    have hnames := of_findSome? hparts placed_binding? hb
    have hbody := of_findSome? hparts placed_stmt? hs
    exact .mk (List.forall_mem_cons.mpr ⟨hspan, List.forall_mem_map.mpr hnames⟩)
      (List.forall_mem_cons.mpr ⟨hexpr he, List.forall_mem_singleton.mpr hbody⟩)
  | @ifStmt test t other htest hbranches =>
    have hbranch : ∀ y ∈ (t :: other.toList).map Phrase.stmt, y.Placed P :=
      List.forall_mem_map.mpr (hbranches ▸ hstmts)
    exact .mk hown (List.forall_mem_cons.mpr ⟨hexpr htest, hbranch⟩)
  | returnStmt => exact .mk hown (List.forall_mem_map.mpr hvalue)
  | assignStmt ht he =>
    have htarget := of_findSome? hparts placed_target? ht
    exact .mk hown (List.forall_mem_cons.mpr ⟨htarget, List.forall_mem_singleton.mpr (hexpr he)⟩)
  | assignTarget heq =>
    obtain ⟨hid, hmembers⟩ := List.forall_mem_cons.mp (heq ▸ hparts)
    exact placed_members (of_filterMap hmembers placed_prop?) (placed_ident hid)
  | exprStmt he => exact .mk nofun (List.forall_mem_singleton.mpr (hexpr he))
  | expr hc =>
    refine holds_of_chain placed_builds (fun p hp => ?_) hc
    refine ⟨fun e => placed_primary? (hparts p hp), ?_, ?_⟩
    · rintro s rfl
      exact hparts _ hp
    · rintro op start rfl
      exact hparts _ hp
  | unaryOp => exact hstart
  | callArgs => exact ⟨hstop, of_filterMap hparts placed_arg?⟩
  | member hid => exact of_findSome? hparts placed_prop? hid
  | plainArg _ he | spreadArg _ he => exact hexpr he
  | closure hb => exact .mk hown (List.forall_mem_map.mpr (of_findSome? hparts placed_block? hb))
  | arrow _ he | parenExpr he => exact .mk hown (List.forall_mem_singleton.mpr (hexpr he))
  | arrayLit => exact .mk hown (List.forall_mem_map.mpr (of_filterMap hparts placed_arg?))
  | objectLit => exact .mk hown (List.forall_mem_map.mpr (of_filterMap hparts placed_field?))
  | shortProperty heq =>
    exact placed_ident (hparts (.name _) (by rw [heq]; exact List.mem_cons_self))
  | namedProperty heq | quotedProperty heq =>
    exact hparts (.expr _) (by rw [heq]; exact List.mem_cons_of_mem _ List.mem_cons_self)
  | _ => trivial

end Piece

/-! ### Reading -/

theorem placed_ofNodes {xs : List (Node Rule)}
    (hxs : ∀ x ∈ xs, ∀ p, Piece.ofNode x = some p → p.Placed P) {ps : List Piece}
    (h : Piece.ofNodes xs = some ps) : ∀ p ∈ ps, p.Placed P := by
  induction xs generalizing ps with
  | nil =>
    obtain rfl := Option.some.inj h
    exact List.forall_mem_nil _
  | cons x xs ih =>
    obtain ⟨p, hp, hmap⟩ := Option.bind_eq_some_iff.mp h
    obtain ⟨qs, hqs, rfl⟩ := Option.map_eq_some_iff.mp hmap
    obtain ⟨hx, hrest⟩ := List.forall_mem_cons.mp hxs
    exact List.forall_mem_cons.mpr ⟨hx p hp, ih hrest hqs⟩

theorem placed_ofNode {cur : Cursor} (hcur : ∀ stop, cur.Leads stop → P stop.offset)
    {x : Node Rule} (hx : x.Ahead cur) : ∀ p, Piece.ofNode x = some p → p.Placed P := by
  induction hx with
  | mk hstart hstop _ ih =>
    intro p h
    obtain ⟨parts, hparts, hmake⟩ := Option.bind_eq_some_iff.mp h
    exact Piece.placed_make (placed_ofNodes ih hparts) (hcur _ hstart) (hcur _ (hstart.trans hstop))
      hmake

/-- **The offsets in the tree of a text are boundaries of its characters.** -/
theorem placed_of_read {text : String} {body : List Stmt} (h : read text = .ok body) :
    ∀ s ∈ body, s.Placed (Text.IsBoundary text) := by
  obtain ⟨nodes, stop, log, span, hmatched, hpieces⟩ := parse_of_read h
  have hahead := (Peg.Grammar.derives_of_run hmatched).ahead skipsAhead_grammar
  have hcur : ∀ stop, (Cursor.start text.toList).Leads stop → Text.IsBoundary text stop.offset :=
    fun _ hstop => hstop.isBoundary
  have hplaced := placed_ofNodes (fun x hx => placed_ofNode hcur (hahead x hx)) hpieces
  exact (hplaced _ List.mem_cons_self).2

/-- **A text is refused at a boundary of its characters.** -/
theorem isBoundary_of_refused {text : String} {r : Refusal} (h : read text = .error r) :
    Text.IsBoundary text r.offset := by
  have hreaches : (grammar.parse .program text.toList).Reaches (Text.IsBoundary text) :=
    Peg.furthest_of_run skipsAhead_grammar (fun _ hstop => hstop.isBoundary)
      (Text.IsBoundary.zero text)
  unfold read read? at h
  split at h
  · cases hstatements : statementsOf _ with
    | none =>
      rw [hstatements] at h
      obtain rfl := Except.error.inj h
      exact .zero text
    | some body =>
      rw [hstatements] at h
      cases h
  · rename_i log hfailed
    rw [hfailed] at hreaches
    obtain rfl := Except.error.inj h
    exact hreaches
  · obtain rfl := Except.error.inj h
    exact .zero text

end LuaSnippet.Script
