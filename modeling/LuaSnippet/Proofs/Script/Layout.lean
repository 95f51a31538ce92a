import LuaSnippet.Proofs.Row
import LuaSnippet.Proofs.Text.Boundary
import LuaSnippet.Proofs.Script.WellFormed

/-!
# The layout of a tree

A phrase is nested if it covers some of the text, the names and phrases in it stand one behind the
other within its span, its names and literals are what the text has there, and all of this holds of
the phrases in it. An expression that is put together from a chain takes its span from its parts, by a
rule of its own for each kind: a call starts with its callee and ends with its
arguments, an operation ends with its last operand, and a non-null mark has no bytes at all. Under
each of these rules nested expressions that stand in a row form a nested one (`lies_toExpr`).
-/

namespace LuaSnippet.Script

open Text (byteLength byteLength_append)

/-! ### Spans -/

/-- Whether a quoted token may have some characters between its quotes: behind a backslash any
character, and else none that is the quote or ends a line. -/
inductive AreQuotable (quote : Char) : List Char → Prop where
  | nil : AreQuotable quote []
  | escape {c cs} (h : AreQuotable quote cs) : AreQuotable quote ('\\' :: c :: cs)
  | plain {c cs} (hquote : c ≠ quote) (hescape : c ≠ '\\') (hend : isLineEnd c = false)
    (h : AreQuotable quote cs) : AreQuotable quote (c :: cs)

instance AreQuotable.decidable (quote : Char) : ∀ cs, Decidable (AreQuotable quote cs)
  | [] => .isTrue .nil
  | [c] => decidable_of_iff (c ≠ quote ∧ c ≠ '\\' ∧ isLineEnd c = false)
    ⟨fun ⟨hquote, hescape, hend⟩ => .plain hquote hescape hend .nil, fun h => by
      cases h with
      | plain hquote hescape hend => exact ⟨hquote, hescape, hend⟩⟩
  | c :: d :: cs =>
    have := AreQuotable.decidable quote cs
    have := AreQuotable.decidable quote (d :: cs)
    decidable_of_iff (c = '\\' ∧ AreQuotable quote cs ∨
        c ≠ quote ∧ c ≠ '\\' ∧ isLineEnd c = false ∧ AreQuotable quote (d :: cs)) <| by
      constructor
      · rintro (⟨rfl, h⟩ | ⟨hquote, hescape, hend, h⟩)
        · exact .escape h
        · exact .plain hquote hescape hend h
      · intro h
        cases h with
        | escape h => exact .inl ⟨rfl, h⟩
        | plain hquote hescape hend h => exact .inr ⟨hquote, hescape, hend, h⟩

namespace Span

/-- Whether a span of a text covers exactly some characters. -/
def Covers (text : String) (s : Span) (cs : List Char) : Prop :=
  ∃ before after, text.toList = before ++ (cs ++ after) ∧ s.start = byteLength before ∧
    s.stop = byteLength (before ++ cs)

/-- Whether a span of a text covers a quoted token with some characters between its quotes. -/
def CoversQuoted (text : String) (s : Span) (raw : List Char) : Prop :=
  ∃ quote, (quote = '"' ∨ quote = '\'') ∧ AreQuotable quote raw ∧
    s.Covers text (quote :: (raw ++ [quote]))

/-- Whether a span is not empty and lies between two places. -/
structure LiesIn (a b : Nat) (s : Span) : Prop where
  from_start : a ≤ s.start
  nonempty : s.start < s.stop
  to_stop : s.stop ≤ b

theorem pairwise_of_inRow {lo hi : Nat} {ss : List Span} (h : InRow LiesIn lo ss hi) :
    ss.Pairwise fun s t => s.stop ≤ t.start := by
  induction h with
  | nil => exact .nil
  | cons _ _ hs hrest ih =>
    refine .cons (fun t ht => ?_) ih
    obtain ⟨a, b, ha, -, hlies⟩ := hrest.exists_of_mem ht
    exact Nat.le_trans hs.to_stop (Nat.le_trans ha hlies.from_start)

namespace LiesIn

variable {a b : Nat} {s : Span}

theorem start_lt (h : s.LiesIn a b) : s.start < b := Nat.lt_of_lt_of_le h.nonempty h.to_stop

theorem lt_stop (h : s.LiesIn a b) : a < s.stop := Nat.lt_of_le_of_lt h.from_start h.nonempty

theorem from_own_start (h : s.LiesIn a b) : s.LiesIn s.start b :=
  ⟨Nat.le_refl _, h.nonempty, h.to_stop⟩

theorem to_own_stop (h : s.LiesIn a b) : s.LiesIn a s.stop :=
  ⟨h.from_start, h.nonempty, Nat.le_refl _⟩

theorem within {lo hi : Nat} (h : s.LiesIn a b) (ha : lo ≤ a) (hb : b ≤ hi) : s.LiesIn lo hi :=
  ⟨Nat.le_trans ha h.from_start, h.nonempty, Nat.le_trans h.to_stop hb⟩

end LiesIn

end Span

/-- Whether a name lies between two places of a text that has the name there. -/
structure Ident.LiesIn (text : String) (a b : Nat) (id : Ident) : Prop where
  span : id.span.LiesIn a b
  covers : id.span.Covers text id.name.toList

/-! ### Phrases -/

namespace Phrase

/-- The bytes that a phrase was read from. -/
def span : Phrase → Span
  | expr e => e.span
  | stmt (.bind _ _ _ s) | stmt (.function _ _ _ s) | stmt (.assign _ _ s) | stmt (.forOf _ _ _ s)
  | stmt (.cond _ _ _ s) | stmt (.result _ s) | stmt (.block _ s) | stmt (.declare _ s)
  | stmt (.typeOnly s) | stmt (.empty s) => s
  | stmt (.expr e) => e.span

def names : Phrase → List Ident
  | expr (.ident id) | expr (.member _ id) | stmt (.function id _ _ _) => [id]
  | stmt (.bind _ b _ _) | stmt (.forOf b _ _ _) => b.names
  | _ => []

/-- The spans of the names and phrases that a phrase consists of, as they follow in the text. -/
def inner : Phrase → List Span
  | expr (.member owner property) => [owner.span, property.span]
  | x => x.names.map Ident.span ++ x.parts.map span

/-- Whether the names, the number or the string of a phrase itself are what the text has there. -/
def IsSpelled (text : String) : Phrase → Prop
  | expr (.number digits s) => s.Covers text digits.toList
  | expr (.string value s) => ∃ raw, s.CoversQuoted text raw ∧ value = String.ofList (unescape raw)
  | x => ∀ id ∈ x.names, id.span.Covers text id.name.toList

/-- Whether a phrase covers some of a text, what it consists of stands in a row within its span, what
it spells is there, and this holds of everything in it. -/
inductive Nested (text : String) : Phrase → Prop where
  | mk {x : Phrase} (hspan : x.span.start < x.span.stop)
    (hinner : InRow Span.LiesIn x.span.start x.inner x.span.stop) (hspelled : x.IsSpelled text)
    (hparts : ∀ y ∈ x.parts, Nested text y) : Nested text x

/-- Whether a phrase lies between two places and is nested. -/
structure LiesIn (text : String) (a b : Nat) (x : Phrase) : Prop where
  from_start : a ≤ x.span.start
  to_stop : x.span.stop ≤ b
  nested : x.Nested text

variable {text : String} {x y : Phrase} {a b lo mid hi : Nat}

theorem Nested.nonempty (h : x.Nested text) : x.span.start < x.span.stop := by
  cases h with
  | mk hspan _ _ _ => exact hspan

theorem Nested.of_mem_parts (h : x.Nested text) (hy : y ∈ x.parts) : y.Nested text := by
  cases h with
  | mk _ _ _ hparts => exact hparts y hy

theorem Nested.of_within (hx : x.Nested text) (h : y.Within x) : y.Nested text := by
  induction h with
  | refl => exact hx
  | part hz _ ih => exact ih (hx.of_mem_parts hz)

theorem LiesIn.span (h : x.LiesIn text a b) : x.span.LiesIn a b :=
  ⟨h.from_start, h.nested.nonempty, h.to_stop⟩

theorem LiesIn.within (h : x.LiesIn text a b) (ha : lo ≤ a) (hb : b ≤ hi) : x.LiesIn text lo hi :=
  ⟨Nat.le_trans ha h.from_start, Nat.le_trans h.to_stop hb, h.nested⟩

theorem LiesIn.from_own_start (h : x.LiesIn text a b) : x.LiesIn text x.span.start b :=
  ⟨Nat.le_refl _, h.to_stop, h.nested⟩

theorem LiesIn.to_own_stop (h : x.LiesIn text a b) : x.LiesIn text a x.span.stop :=
  ⟨h.from_start, Nat.le_refl _, h.nested⟩

theorem nested_of_inRow {xs : List Phrase} (h : InRow (LiesIn text) lo xs hi) :
    ∀ x ∈ xs, x.Nested text := by
  intro x hx
  obtain ⟨a, b, -, -, hlies⟩ := h.exists_of_mem hx
  exact hlies.nested

theorem LiesIn.of_rows (hspan : x.span = ⟨lo, hi⟩) (hlt : lo < hi)
    (hnames : InRow (Ident.LiesIn text) lo x.names mid)
    (hparts : InRow (LiesIn text) mid x.parts hi)
    (hinner : x.inner = x.names.map Ident.span ++ x.parts.map Phrase.span)
    (hspelled : (∀ id ∈ x.names, id.span.Covers text id.name.toList) → x.IsSpelled text) :
    x.LiesIn text lo hi := by
  have hrow : InRow Span.LiesIn lo x.inner hi := by
    rw [hinner]
    exact (hnames.map fun _ _ _ h => h.span).append (hparts.map fun _ _ _ h => h.span)
  have hcovers : ∀ id ∈ x.names, id.span.Covers text id.name.toList := by
    intro id hid
    obtain ⟨a, b, -, -, hlies⟩ := hnames.exists_of_mem hid
    exact hlies.covers
  have hnested : x.Nested text := by
    refine .mk ?_ ?_ (hspelled hcovers) (nested_of_inRow hparts)
    · rw [hspan]
      exact hlt
    · rw [hspan]
      exact hrow
  exact ⟨Nat.le_of_eq (congrArg Span.start hspan).symm, Nat.le_of_eq (congrArg Span.stop hspan),
    hnested⟩

theorem LiesIn.of_parts (hspan : x.span = ⟨lo, hi⟩) (hlt : lo < hi)
    (hparts : InRow (LiesIn text) lo x.parts hi) (hnames : x.names = [])
    (hinner : x.inner = x.names.map Ident.span ++ x.parts.map Phrase.span)
    (hspelled : x.IsSpelled text) : x.LiesIn text lo hi := by
  have hnone : InRow (Ident.LiesIn text) lo x.names lo := by
    rw [hnames]
    exact .nil (Nat.le_refl _)
  exact .of_rows hspan hlt hnone hparts hinner fun _ => hspelled

theorem LiesIn.alone (h : x.LiesIn text a b) :
    InRow (LiesIn text) x.span.start [x] x.span.stop :=
  .single (Nat.le_of_lt h.nested.nonempty) h.from_own_start.to_own_stop

end Phrase

/-- Whether an expression lies between two places and is nested. -/
abbrev Expr.LiesIn (text : String) (a b : Nat) (e : Expr) : Prop := (Phrase.expr e).LiesIn text a b

/-- Whether a statement lies between two places and is nested. -/
abbrev Stmt.LiesIn (text : String) (a b : Nat) (s : Stmt) : Prop := (Phrase.stmt s).LiesIn text a b

variable {text : String} {lo mid hi a b : Nat}

theorem lies_ident {id : Ident} (h : id.LiesIn text a b) : (Expr.ident id).LiesIn text a b := by
  refine ⟨h.span.from_start, h.span.to_stop, .mk h.span.nonempty ?_ ?_ (by simp [Phrase.parts])⟩
  · exact .single (Nat.le_of_lt h.span.nonempty) h.span.from_own_start.to_own_stop
  · exact List.forall_mem_singleton.mpr h.covers

theorem lies_member {owner : Expr} {id : Ident} (howner : owner.LiesIn text lo mid)
    (hid : id.LiesIn text mid hi) : (Expr.member owner id).LiesIn text lo hi := by
  have hstart : owner.span.start < mid := howner.span.start_lt
  refine ⟨howner.from_start, hid.span.to_stop, .mk ?_ ?_ ?_ ?_⟩
  · exact Nat.lt_trans hstart hid.span.lt_stop
  · exact .cons (Nat.le_refl _) (Nat.le_of_lt hstart) howner.from_own_start.span
      (.single (Nat.le_of_lt hid.span.lt_stop) hid.span.to_own_stop)
  · exact List.forall_mem_singleton.mpr hid.covers
  · exact List.forall_mem_singleton.mpr howner.nested

theorem lies_binary {op : BinaryOp} {lhs rhs : Expr} :
    (Expr.binary op lhs rhs).LiesIn text lo hi ↔
      ∃ mid, lhs.LiesIn text lo mid ∧ rhs.LiesIn text mid hi := by
  constructor
  · rintro ⟨hlo, hhi, hnested⟩
    have hlhs : (Phrase.expr lhs).Nested text := hnested.of_mem_parts (by simp [Phrase.parts])
    have hrhs : (Phrase.expr rhs).Nested text := hnested.of_mem_parts (by simp [Phrase.parts])
    cases hnested with
    | mk _ hinner _ _ =>
      have hle : lhs.span.stop ≤ rhs.span.start :=
        (List.pairwise_cons.mp (Span.pairwise_of_inRow hinner)).1 _ List.mem_cons_self
      exact ⟨lhs.span.stop, ⟨hlo, Nat.le_refl _, hlhs⟩, ⟨hle, hhi, hrhs⟩⟩
  · rintro ⟨mid, hlhs, hrhs⟩
    have hstart : lhs.span.start < mid := hlhs.span.start_lt
    have hstop : mid < rhs.span.stop := hrhs.span.lt_stop
    have hwhole : (Expr.binary op lhs rhs).LiesIn text lhs.span.start rhs.span.stop := by
      refine .of_parts rfl (Nat.lt_trans hstart hstop) ?_ rfl rfl (List.forall_mem_nil _)
      exact .cons (Nat.le_refl _) (Nat.le_of_lt hstart) hlhs.from_own_start
        (.single (Nat.le_of_lt hstop) hrhs.to_own_stop)
    exact hwhole.within hlhs.from_start hrhs.to_stop

/-! ### Chains -/

/-- Whether an argument lies between two places and is nested. -/
abbrev Arg.LiesIn (text : String) (a b : Nat) (x : Arg) : Prop := x.value.LiesIn text a b

/-- Whether what a suffix adds to an expression lies between two places. -/
def Suffix.LiesIn (text : String) (a b : Nat) : Suffix → Prop
  | .call args stop => InRow (Arg.LiesIn text) a args stop ∧ stop ≤ b
  | .member property => property.LiesIn text a b
  | .nonNull => True

/-- Whether a sign starts between two places. -/
def SignLiesIn (a b : Nat) (s : UnaryOp × Nat) : Prop := a ≤ s.2 ∧ s.2 ≤ b

/-- Whether the signs, the primary expression and the suffixes of an operand stand one behind the other
between two places. -/
def Operand.LiesIn (text : String) (lo hi : Nat) (o : Operand) : Prop :=
  ∃ a b, InRow SignLiesIn lo o.signs a ∧ o.primary.LiesIn text a b ∧
    InRow (Suffix.LiesIn text) b o.suffixes hi

theorem lies_apply {e : Expr} (he : e.LiesIn text lo a) {s : Suffix} (hab : a ≤ b)
    (hs : s.LiesIn text a b) : (s.apply e).LiesIn text lo b := by
  cases s with
  | call args stop =>
    obtain ⟨hargs, hstop⟩ := hs
    have hstart : e.span.start < a := he.span.start_lt
    have hwhole : (Expr.call e args ⟨e.span.start, stop⟩).LiesIn text e.span.start stop := by
      refine .of_parts rfl (Nat.lt_of_lt_of_le hstart hargs.le) ?_ rfl rfl (List.forall_mem_nil _)
      exact .cons (Nat.le_refl _) (Nat.le_of_lt hstart) he.from_own_start
        (hargs.map fun _ _ _ h => h)
    exact hwhole.within he.from_start hstop
  | member property => exact lies_member he hs
  | nonNull =>
    have hwhole : (Expr.nonNull e).LiesIn text e.span.start e.span.stop :=
      .of_parts rfl he.nested.nonempty he.alone rfl rfl (List.forall_mem_nil _)
    exact hwhole.within he.from_start (Nat.le_trans he.to_stop hab)

theorem lies_applyAll {suffixes : List Suffix} {e : Expr} (he : e.LiesIn text lo a)
    (h : InRow (Suffix.LiesIn text) a suffixes b) :
    (suffixes.foldl Suffix.apply e).LiesIn text lo b := by
  induction h generalizing e with
  | nil h => exact he.within (Nat.le_refl _) h
  | cons hlo hab hs _ ih =>
    exact ih (lies_apply (he.within (Nat.le_refl _) hlo) hab hs)

theorem lies_sign {s : UnaryOp × Nat} (hs : SignLiesIn lo a s) {e : Expr} (he : e.LiesIn text a b) :
    (Operand.sign s e).LiesIn text lo b := by
  have hstart : s.2 ≤ e.span.start := Nat.le_trans hs.2 he.from_start
  have hwhole : (Operand.sign s e).LiesIn text s.2 e.span.stop :=
    .of_parts rfl (Nat.lt_of_le_of_lt hstart he.nested.nonempty) (he.alone.from_before hstart)
      rfl rfl (List.forall_mem_nil _)
  exact hwhole.within hs.1 he.to_stop

theorem lies_signAll {signs : List (UnaryOp × Nat)} (h : InRow SignLiesIn lo signs a) {e : Expr}
    (he : e.LiesIn text a b) : (signs.foldr Operand.sign e).LiesIn text lo b := by
  induction h with
  | nil h => exact he.within h (Nat.le_refl _)
  | cons hlo hab hs _ ih =>
    exact lies_sign ⟨Nat.le_trans hlo hs.1, hs.2⟩ (ih he)

theorem Operand.LiesIn.toExpr {o : Operand} (h : o.LiesIn text lo hi) :
    o.toExpr.LiesIn text lo hi := by
  obtain ⟨a, b, hsigns, hprimary, hsuffixes⟩ := h
  exact lies_signAll hsigns (lies_applyAll hprimary hsuffixes)

/-- Going down the right edge of a tree keeps what stands to the left, and what is attached stands to
the right of all of it. -/
theorem lies_attach {e e' : Expr} {op : BinaryOp} (he : e.LiesIn text lo mid)
    (he' : e'.LiesIn text mid hi) : (e.attach op e').LiesIn text lo hi := by
  fun_induction Expr.attach e op e' generalizing lo with
  | case1 op lhs rhs op' e' h ih =>
    obtain ⟨a, hlhs, hrhs⟩ := lies_binary.mp he
    exact lies_binary.mpr ⟨a, hlhs, ih hrhs he'⟩
  | case2 op lhs rhs op' e' h => exact lies_binary.mpr ⟨mid, he, he'⟩
  | case3 lhs op' e' h => exact lies_binary.mpr ⟨mid, he, he'⟩

/-- Whether the operand of a link lies between two places. -/
def LinkLiesIn (text : String) (a b : Nat) (link : BinaryOp × Operand) : Prop :=
  link.2.LiesIn text a b

theorem lies_attachAll {rest : List (BinaryOp × Operand)} {e : Expr} (he : e.LiesIn text lo a)
    (h : InRow (LinkLiesIn text) a rest hi) :
    (rest.foldl (fun tree link => tree.attach link.1 link.2.toExpr) e).LiesIn text lo hi := by
  induction h generalizing e with
  | nil h => exact he.within (Nat.le_refl _) h
  | cons hlo hab hlink _ ih =>
    exact ih (lies_attach (he.within (Nat.le_refl _) hlo) hlink.toExpr)

/-- **A chain whose operands stand in a row forms a nested tree.** -/
theorem lies_toExpr {c : Chain} (hfirst : c.first.LiesIn text lo mid)
    (hrest : InRow (LinkLiesIn text) mid c.rest hi) : c.toExpr.LiesIn text lo hi :=
  lies_attachAll hfirst.toExpr hrest

end LuaSnippet.Script
