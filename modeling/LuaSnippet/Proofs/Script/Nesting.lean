import LuaSnippet.Proofs.Script.Layout
import LuaSnippet.Proofs.Script.Total

/-!
# Nested pieces

The pieces within a node stand in a row. Whatever rule the node is of, its piece takes its parts from
them in the order in which they stand: keywords and types are passed over, a chain is read from the
right, and what is looked for by its kind is found behind what was found before. So what a rule makes
of pieces that stand in a row is nested (`Piece.lies_make`).
-/

namespace LuaSnippet.Script

open Peg (Cursor)

variable {text : String} {lo hi a b : Nat}

namespace Piece

/-! ### Pieces -/

/-- Whether what a piece holds lies between two places of a text and is nested. -/
def LiesIn (text : String) (a b : Nat) : Piece → Prop
  | name id | prop id => id.LiesIn text a b
  | string value span => (Expr.string value span).LiesIn text a b
  | pattern names => InRow (Ident.LiesIn text) a names b
  | stmt s => s.LiesIn text a b
  | block body span => span.LiesIn a b ∧ InRow (Stmt.LiesIn text) span.start body span.stop
  | target e | expr e => e.LiesIn text a b
  | sign _ start => a ≤ start ∧ start ≤ b
  | suffix s => s.LiesIn text a b
  | arg x => x.LiesIn text a b
  | field f => f.value.LiesIn text a b
  | _ => True

theorem lies_expr? (a b : Nat) (p : Piece) (e : Expr) (h : p.expr? = some e)
    (hp : p.LiesIn text a b) : e.LiesIn text a b := by
  cases p <;> simp_all [expr?, LiesIn]

theorem lies_arg? (a b : Nat) (p : Piece) (x : Arg) (h : p.arg? = some x)
    (hp : p.LiesIn text a b) : x.LiesIn text a b := by
  cases p <;> simp_all [arg?, LiesIn]

theorem lies_name? (a b : Nat) (p : Piece) (id : Ident) (h : p.name? = some id)
    (hp : p.LiesIn text a b) : id.LiesIn text a b := by
  cases p <;> simp_all [name?, LiesIn]

theorem lies_prop? (a b : Nat) (p : Piece) (id : Ident) (h : p.prop? = some id)
    (hp : p.LiesIn text a b) : id.LiesIn text a b := by
  cases p <;> simp_all [prop?, LiesIn]

theorem lies_field? (a b : Nat) (p : Piece) (f : Field) (h : p.field? = some f)
    (hp : p.LiesIn text a b) : f.value.LiesIn text a b := by
  cases p <;> simp_all [field?, LiesIn]

theorem lies_block? (a b : Nat) (p : Piece) (x : List Stmt × Span) (h : p.block? = some x)
    (hp : p.LiesIn text a b) : InRow (Stmt.LiesIn text) a x.1 b := by
  cases p with
  | block body span =>
    obtain rfl := Option.some.inj h
    exact (hp.2.from_before hp.1.from_start).up_to hp.1.to_stop
  | _ => cases h

theorem lies_block {body : List Stmt} {span : Span} (hspan : span.LiesIn a b)
    (hbody : InRow (Stmt.LiesIn text) span.start body span.stop) :
    (Stmt.block body span).LiesIn text a b := by
  have hwhole : (Stmt.block body span).LiesIn text span.start span.stop :=
    .of_parts rfl hspan.nonempty (hbody.map fun _ _ _ h => h) rfl rfl (List.forall_mem_nil _)
  exact hwhole.within hspan.from_start hspan.to_stop

theorem lies_stmt? (a b : Nat) (p : Piece) (s : Stmt) (h : p.stmt? = some s)
    (hp : p.LiesIn text a b) : s.LiesIn text a b := by
  cases p with
  | stmt =>
    obtain rfl := Option.some.inj h
    exact hp
  | block body span =>
    obtain rfl := Option.some.inj h
    exact lies_block hp.1 hp.2
  | _ => cases h

theorem lies_binding? (hab : a ≤ b) {p : Piece} {x : Binding} (h : p.binding? = some x)
    (hp : p.LiesIn text a b) : InRow (Ident.LiesIn text) a x.names b := by
  cases p with
  | name =>
    obtain rfl := Option.some.inj h
    exact .single hab hp
  | pattern =>
    obtain rfl := Option.some.inj h
    exact hp
  | _ => cases h

theorem none_of_binding? {p : Piece} {x : Binding} (h : p.binding? = some x) :
    p.expr? = none ∧ p.stmt? = none := by
  cases p <;> simp_all [binding?, expr?, stmt?]

theorem lies_primary? {p : Piece} (hp : p.LiesIn text a b) {e : Expr} (h : p.primary? = some e) :
    e.LiesIn text a b := by
  cases p with
  | expr | string =>
    obtain rfl := Option.some.inj h
    exact hp
  | name =>
    obtain rfl := Option.some.inj h
    exact lies_ident hp
  | _ => cases h

/-! ### Chains -/

/-- Whether the end of a chain lies between two places: suffixes or an operand in front, and then
the links. -/
def ChainEnd.LiesIn (text : String) (lo hi : Nat) (e : ChainEnd) : Prop :=
  ∃ mid, (match e.operand with
      | none => InRow (Suffix.LiesIn text) lo e.suffixes mid
      | some o => lo ≤ mid ∧ o.LiesIn text lo mid) ∧
    InRow (LinkLiesIn text) mid e.rest hi

theorem lies_extendChain {p : Piece} {e e' : ChainEnd} (hlo : lo ≤ a) (hab : a ≤ b)
    (hp : p.LiesIn text a b) (he : e.LiesIn text b hi) (h : p.extendChain e = some e') :
    e'.LiesIn text lo hi := by
  obtain ⟨suffixes, operand, rest⟩ := e
  obtain ⟨mid, hfront, hrest⟩ := he
  unfold extendChain at h
  split at h
  · rename_i s hnone
    obtain rfl : operand = none := hnone
    obtain rfl := Option.some.inj h
    exact ⟨mid, .cons hlo hab hp hfront, hrest⟩
  · rename_i op start o hsome
    obtain rfl : operand = some o := hsome
    obtain rfl := Option.some.inj h
    obtain ⟨hmid, a', b', hsigns, hprimary, hsuffixes⟩ := hfront
    refine ⟨mid, ⟨by omega, a', b', ?_, hprimary, hsuffixes⟩, hrest⟩
    exact .cons hlo hab hp hsigns
  · rename_i op o hsome
    obtain rfl : operand = some o := hsome
    obtain rfl := Option.some.inj h
    obtain ⟨hmid, ho⟩ := hfront
    exact ⟨lo, .nil (Nat.le_refl lo), .cons (by omega) hmid ho hrest⟩
  · rename_i hnone
    obtain rfl : operand = none := hnone
    obtain ⟨x, hx, rfl⟩ := Option.map_eq_some_iff.mp h
    have hsuffixes : InRow (Suffix.LiesIn text) b suffixes mid := hfront
    have hmid := hsuffixes.le
    exact ⟨mid, ⟨by omega, a, b, .nil hlo, lies_primary? hp hx, hsuffixes⟩, hrest⟩
  · cases h

theorem lies_chainEnd {ps : List Piece} {e : ChainEnd} (hps : InRow (LiesIn text) lo ps hi)
    (h : chainEnd ps = some e) : e.LiesIn text lo hi := by
  induction hps generalizing e with
  | nil hle =>
    obtain rfl := Option.some.inj h
    exact ⟨_, .nil (Nat.le_refl _), .nil hle⟩
  | cons hlo hab hp _ ih =>
    obtain ⟨e', he', hextend⟩ := Option.bind_eq_some_iff.mp h
    exact lies_extendChain hlo hab hp (ih he') hextend

theorem lies_chain {ps : List Piece} {c : Chain} (hps : InRow (LiesIn text) lo ps hi)
    (h : chain ps = some c) : c.toExpr.LiesIn text lo hi := by
  obtain ⟨e, he, hc⟩ := Option.bind_eq_some_iff.mp h
  obtain ⟨o, ho, rfl⟩ := Option.map_eq_some_iff.mp hc
  obtain ⟨mid, hfront, hrest⟩ := lies_chainEnd hps he
  rw [ho] at hfront
  exact lies_toExpr hfront.2 hrest

/-! ### Pieces behind keywords -/

/-- The pieces of the rules that are no keywords stand in their order among all pieces, and what is in
no keyword is found among them as well. -/
theorem exists_significant {rs : List Rule} {parts : List Piece} (h : List.Forall₂ IsOf rs parts) :
    ∃ ps, ps.Sublist parts ∧ List.Forall₂ IsOf (Rule.significant rs) ps ∧
      ∀ {α : Type} (f : Piece → Option α), (∀ k, f (.mark (.keyword k)) = none) →
        parts.findSome? f = ps.findSome? f ∧ parts.filterMap f = ps.filterMap f := by
  induction h with
  | nil => exact ⟨[], .slnil, .nil, fun f _ => ⟨rfl, rfl⟩⟩
  | @cons r p rs parts hp _ ih =>
    obtain ⟨ps, hsub, hkinds, hfind⟩ := ih
    by_cases hr : r.isKeyword = true
    · cases r with
      | keyword k =>
        obtain rfl : p = .mark (.keyword k) := hp
        refine ⟨ps, hsub.cons _, hkinds, fun f hf => ?_⟩
        rw [List.findSome?_cons, hf k, List.filterMap_cons_none (hf k)]
        exact hfind f hf
      | _ => cases hr
    · refine ⟨p :: ps, hsub.cons_cons p, ?_, fun f hf => ?_⟩
      · rw [Rule.significant, List.filter_cons_of_pos (by simp [hr])]
        exact .cons hp hkinds
      · obtain ⟨hsome, hall⟩ := hfind f hf
        rw [List.findSome?_cons, List.findSome?_cons, List.filterMap_cons, List.filterMap_cons,
          hsome, hall]
        exact ⟨rfl, rfl⟩

/-! ### Making pieces -/

theorem lies_members {ids : List Ident} {e : Expr} (he : e.LiesIn text lo a)
    (hids : InRow (Ident.LiesIn text) a ids hi) : (ids.foldl .member e).LiesIn text lo hi := by
  induction hids generalizing e with
  | nil hle => exact he.within (Nat.le_refl _) hle
  | cons hlo _ hid _ ih => exact ih (lies_member (he.within (Nat.le_refl _) hlo) hid)

section

variable {rs : List Rule} {parts : List Piece} (hparts : InRow (LiesIn text) lo parts hi)

include hparts

theorem lies_findExpr? {e : Expr} (h : parts.findSome? expr? = some e) : e.LiesIn text lo hi := by
  obtain ⟨a, b, ha, hb, he⟩ := hparts.findSome? lies_expr? h
  exact he.within ha hb

theorem lies_findBlock? {x : List Stmt × Span} (h : parts.findSome? block? = some x) :
    InRow (Stmt.LiesIn text) lo x.1 hi := by
  obtain ⟨a, b, ha, hb, hbody⟩ := hparts.findSome? lies_block? h
  exact (hbody.from_before ha).up_to hb

theorem lies_option :
    InRow (Phrase.LiesIn text) lo ((parts.findSome? expr?).toList.map Phrase.expr) hi := by
  cases hfind : parts.findSome? expr? with
  | none => exact .nil hparts.le
  | some e => exact .single hparts.le (lies_findExpr? hparts hfind)

theorem lies_statements : InRow (Stmt.LiesIn text) lo (parts.filterMap stmt?) hi :=
  hparts.filterMap lies_stmt?

theorem lies_branches (hkinds : List.Forall₂ IsOf rs parts) (hfits : Rule.ifStmt.Fits rs)
    {test : Expr} (htest : parts.findSome? expr? = some test) :
    InRow (Phrase.LiesIn text) lo (.expr test :: (parts.filterMap stmt?).map .stmt) hi := by
  obtain ⟨r, others, hsignificant, -⟩ := hfits
  obtain ⟨ps, hsub, hps, hfind⟩ := exists_significant hkinds
  rw [hsignificant] at hps
  obtain ⟨_, behind, ⟨e, rfl⟩, -, rfl⟩ := List.forall₂_cons_left_iff.mp hps
  rw [(hfind expr? fun _ => rfl).1] at htest
  obtain rfl : e = test := Option.some.inj htest
  have hrow : InRow (LiesIn text) lo (.expr e :: behind) hi := hparts.sublist hsub
  cases hrow with
  | @cons _ a b _ _ _ hlo hab he hbehind =>
    rw [(hfind stmt? fun _ => rfl).2]
    exact .cons hlo hab he ((lies_statements hbehind).map (f := Phrase.stmt) fun _ _ _ h => h)

theorem lies_assigned (hkinds : List.Forall₂ IsOf rs parts) (hfits : Rule.assignStmt.Fits rs)
    {t e : Expr} (ht : parts.findSome? target? = some t) (he : parts.findSome? expr? = some e) :
    InRow (Phrase.LiesIn text) lo [.expr t, .expr e] hi := by
  obtain rfl : rs = _ := hfits
  obtain ⟨_, _, ⟨t', rfl⟩, hlast, rfl⟩ := List.forall₂_cons_left_iff.mp hkinds
  obtain rfl : t' = t := Option.some.inj ht
  cases hparts with
  | cons hlo hab htarget hvalue =>
    exact .cons hlo hab htarget (.single hvalue.le (lies_findExpr? hvalue he))

theorem lies_bound {r : Rule} {behind : List Rule} (hr : r.isBinding = true)
    (hkinds : List.Forall₂ IsOf (.varKind :: r :: behind) parts) {x : Binding}
    (h : parts.findSome? binding? = some x) :
    ∃ mid qs, InRow (Ident.LiesIn text) lo x.names mid ∧ InRow (LiesIn text) mid qs hi ∧
      List.Forall₂ IsOf behind qs ∧ parts.findSome? expr? = qs.findSome? expr? ∧
      parts.findSome? stmt? = qs.findSome? stmt? := by
  obtain ⟨_, rest, ⟨k, rfl⟩, hrest, rfl⟩ := List.forall₂_cons_left_iff.mp hkinds
  obtain ⟨p, qs, hp, hqs, rfl⟩ := List.forall₂_cons_left_iff.mp hrest
  obtain ⟨y, hy⟩ := binding?_of_isBinding hr p hp
  obtain ⟨hexpr, hstmt⟩ := none_of_binding? hy
  change (p :: qs).findSome? binding? = some x at h
  rw [List.findSome?_cons, hy] at h
  obtain rfl := Option.some.inj h
  cases hparts with
  | cons hlo hab _ hrow =>
    cases hrow with
    | @cons _ a b _ _ _ hlo' hab' hlies hbehind =>
      refine ⟨b, qs, (lies_binding? hab' hy hlies).from_before (by omega), hbehind, hqs, ?_, ?_⟩
      · show (p :: qs).findSome? expr? = qs.findSome? expr?
        rw [List.findSome?_cons, hexpr]
      · show (p :: qs).findSome? stmt? = qs.findSome? stmt?
        rw [List.findSome?_cons, hstmt]

theorem lies_declared (hkinds : List.Forall₂ IsOf rs parts) (hfits : Rule.functionDecl.Fits rs)
    {id : Ident} (hid : parts.findSome? name? = some id) {x : List Stmt × Span}
    (hx : parts.findSome? block? = some x) :
    ∃ mid, InRow (Ident.LiesIn text) lo [id] mid ∧ InRow (Stmt.LiesIn text) mid x.1 hi := by
  obtain ⟨rest, hsignificant, -⟩ := hfits
  obtain ⟨ps, hsub, hps, hfind⟩ := exists_significant hkinds
  rw [hsignificant] at hps
  obtain ⟨_, behind, ⟨id', rfl⟩, -, rfl⟩ := List.forall₂_cons_left_iff.mp hps
  rw [(hfind name? fun _ => rfl).1] at hid
  rw [(hfind block? fun _ => rfl).1] at hx
  obtain rfl := Option.some.inj hid
  cases hparts.sublist hsub with
  | @cons _ a b _ _ _ hlo hab hname hbehind =>
    refine ⟨b, .cons hlo hab hname (.nil (Nat.le_refl _)), ?_⟩
    exact lies_findBlock? hbehind hx

theorem lies_loop (hkinds : List.Forall₂ IsOf rs parts) (hfits : Rule.forOfStmt.Fits rs)
    {x : Binding} (hx : parts.findSome? binding? = some x) {e : Expr}
    (he : parts.findSome? expr? = some e) {s : Stmt} (hs : parts.findSome? stmt? = some s) :
    ∃ mid, InRow (Ident.LiesIn text) lo x.names mid ∧
      InRow (Phrase.LiesIn text) mid [.expr e, .stmt s] hi := by
  obtain ⟨r, r', hsignificant, hr, hr'⟩ := hfits
  obtain ⟨ps, hsub, hps, hfind⟩ := exists_significant hkinds
  rw [hsignificant] at hps
  rw [(hfind binding? fun _ => rfl).1] at hx
  rw [(hfind expr? fun _ => rfl).1] at he
  rw [(hfind stmt? fun _ => rfl).1] at hs
  obtain ⟨mid, qs, hnames, hqs, hbehind, hexpr, hstmt⟩ :=
    lies_bound (hparts.sublist hsub) hr hps hx
  obtain ⟨_, _, ⟨e', rfl⟩, hlast, rfl⟩ := List.forall₂_cons_left_iff.mp hbehind
  obtain ⟨q, _, hq, hnil, rfl⟩ := List.forall₂_cons_left_iff.mp hlast
  obtain rfl := List.forall₂_nil_left_iff.mp hnil
  rw [hexpr] at he
  obtain rfl : e' = e := Option.some.inj he
  rw [hstmt] at hs
  cases hqs with
  | @cons _ a b _ _ _ hlo hab hiterable hbody =>
    obtain ⟨c, d, hc, hd, hlies⟩ := hbody.findSome? lies_stmt? hs
    exact ⟨mid, hnames, .cons hlo hab hiterable (.single hbody.le (hlies.within hc hd))⟩

end

/-- **What a rule makes of pieces that stand in a row is nested.** -/
theorem lies_make {r : Rule} {rs : List Rule} {parts : List Piece} {start stop : Cursor}
    (hprogram : r ≠ .program) (hkinds : List.Forall₂ IsOf rs parts) (hfits : r.Fits rs)
    (hparts : InRow (LiesIn text) start.offset parts stop.offset)
    (hlt : r.isNullable = false → start.offset < stop.offset)
    (hcovers : Span.Covers text ⟨start.offset, stop.offset⟩ (start.textTo stop))
    (hquoted : r = .stringLit → ∀ raw, parts.findSome? raw? = some raw →
      Span.CoversQuoted text ⟨start.offset, stop.offset⟩ raw)
    {p : Piece} (h : make r start stop parts = some p) :
    p.LiesIn text start.offset stop.offset := by
  have hspan : r.isNullable = false →
      Span.LiesIn start.offset stop.offset ⟨start.offset, stop.offset⟩ :=
    fun hr => ⟨Nat.le_refl _, hlt hr, Nat.le_refl _⟩
  have hempty : InRow (Phrase.LiesIn text) start.offset [] stop.offset := .nil hparts.le
  have hexpr {e : Expr} (he : parts.findSome? expr? = some e) :
      InRow (Phrase.LiesIn text) start.offset [.expr e] stop.offset :=
    .single hparts.le (lies_findExpr? hparts he)
  cases make_eq_some_iff.mp h with
  | program => exact absurd rfl hprogram
  | ident | propName =>
    refine ⟨hspan rfl, ?_⟩
    rw [String.toList_ofList]
    exact hcovers
  | block => exact ⟨hspan rfl, lies_statements hparts⟩
  | declareStmt | interfaceDecl | typeAlias | emptyStmt | trueLit | falseLit | absentLit =>
    exact .of_parts rfl (hlt rfl) hempty rfl rfl (List.forall_mem_nil _)
  | numberLit =>
    refine .of_parts rfl (hlt rfl) hempty rfl rfl ?_
    show Span.Covers text _ (String.ofList _).toList
    rw [String.toList_ofList]
    exact hcovers
  | stringLit hraw => exact .of_parts rfl (hlt rfl) hempty rfl rfl ⟨_, hquoted rfl _ hraw, rfl⟩
  | functionDecl hid hb =>
    obtain ⟨mid, hname, hbody⟩ := lies_declared hparts hkinds hfits hid hb
    exact .of_rows rfl (hlt rfl) hname (hbody.map fun _ _ _ h => h) rfl fun h => h
  | varStmt _ hb =>
    obtain ⟨r, behind, rfl, hr⟩ := hfits
    obtain ⟨mid, qs, hnames, hqs, -, hfind, -⟩ := lies_bound hparts hr hkinds hb
    rw [hfind]
    exact .of_rows rfl (hlt rfl) hnames (lies_option hqs) rfl fun h => h
  | arrayPattern => exact hparts.filterMap lies_name?
  | forOfStmt hb he hs =>
    obtain ⟨mid, hnames, hrest⟩ := lies_loop hparts hkinds hfits hb he hs
    exact .of_rows rfl (hlt rfl) hnames hrest rfl fun h => h
  | ifStmt htest hbranches =>
    have hrow := lies_branches hparts hkinds hfits htest
    rw [hbranches] at hrow
    exact .of_parts rfl (hlt rfl) hrow rfl rfl (List.forall_mem_nil _)
  | returnStmt =>
    exact .of_parts rfl (hlt rfl) (lies_option hparts) rfl rfl (List.forall_mem_nil _)
  | assignStmt ht he =>
    have hrow := lies_assigned hparts hkinds hfits ht he
    exact .of_parts rfl (hlt rfl) hrow rfl rfl (List.forall_mem_nil _)
  | assignTarget heq =>
    cases heq ▸ hparts with
    | cons hlo _ hid hmembers =>
      exact lies_members ((lies_ident hid).within hlo (Nat.le_refl _))
        (hmembers.filterMap lies_prop?)
  | @exprStmt e he =>
    have hlies := lies_findExpr? hparts he
    have hwhole : (Stmt.expr e).LiesIn text e.span.start e.span.stop :=
      .of_parts rfl hlies.nested.nonempty hlies.alone rfl rfl (List.forall_mem_nil _)
    exact hwhole.within hlies.from_start hlies.to_stop
  | expr hc => exact lies_chain hparts hc
  | unaryOp => exact ⟨Nat.le_refl _, hparts.le⟩
  | callArgs => exact ⟨hparts.filterMap lies_arg?, Nat.le_refl _⟩
  | member hid =>
    obtain ⟨a, b, ha, hb, hlies⟩ := hparts.findSome? lies_prop? hid
    exact ⟨hlies.span.within ha hb, hlies.covers⟩
  | plainArg _ he | spreadArg _ he => exact lies_findExpr? hparts he
  | closure hb =>
    have hbody := (lies_findBlock? hparts hb).map (f := Phrase.stmt) fun _ _ _ h => h
    exact .of_parts rfl (hlt rfl) hbody rfl rfl (List.forall_mem_nil _)
  | arrow _ he | parenExpr he =>
    exact .of_parts rfl (hlt rfl) (hexpr he) rfl rfl (List.forall_mem_nil _)
  | arrayLit =>
    refine .of_parts rfl (hlt rfl) ?_ rfl rfl (List.forall_mem_nil _)
    exact (hparts.filterMap lies_arg?).map fun _ _ _ h => h
  | objectLit =>
    refine .of_parts rfl (hlt rfl) ?_ rfl rfl (List.forall_mem_nil _)
    exact (hparts.filterMap lies_field?).map fun _ _ _ h => h
  | shortProperty heq =>
    obtain ⟨a, b, ha, hb, hid⟩ := (heq ▸ hparts).exists_of_mem List.mem_cons_self
    exact (lies_ident hid).within ha hb
  | namedProperty heq | quotedProperty heq =>
    obtain ⟨a, b, ha, hb, he⟩ :=
      (heq ▸ hparts).exists_of_mem (List.mem_cons_of_mem _ List.mem_cons_self)
    exact he.within ha hb
  | _ => trivial

end Piece

end LuaSnippet.Script
