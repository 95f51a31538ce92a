import LuaSnippet.Proofs.Grouping
import LuaSnippet.Proofs.Script.Made

/-!
# Precedence of the script operators

What the pieces of an expression become. The pieces form a line: signs, a primary expression and
suffixes, and the same again behind every binary operator (`BeginsOperand`). `Piece.make` gives a tree
that reads back as this line and is grouped by the levels of the operators, and no other tree is and
does (`make_expr_grouped`).

Places are kept as far as the line has them, that is where a sign starts and where a call stops. The
other ends follow from the operands, and trees are compared without them.
-/

namespace LuaSnippet.Script

open Peg (Cursor)

/-- The binary operators of scripts level by level, the loosest first:
`||`, `&&`, `|`, `^`, `&`, the equalities, the comparisons, the shifts, sums and products. -/
def operatorLevels : List (List BinaryOp) :=
  [[.or], [.and], [.bitOr], [.bitXor], [.bitAnd],
    [.strictEq, .strictNe, .eq, .ne],
    [.lt, .le, .gt, .ge],
    [.shl, .shr, .ushr],
    [.add, .sub],
    [.mul, .div, .mod]]

/-- The levels of the script operators, all of which group from the left. -/
def scriptLevels : Levels BinaryOp :=
  ⟨fun op => operatorLevels.findIdx fun ops => op ∈ ops, fun _ => false, fun _ _ _ => rfl⟩

theorem level_eq (op : BinaryOp) : op.level = scriptLevels.level op + 1 := by
  cases op <;> rfl

theorem allowsRight_scriptLevels (op op' : BinaryOp) :
    scriptLevels.AllowsRight op op' ↔ op.level < op'.level := by
  rw [level_eq, level_eq]
  simp [Levels.AllowsRight, scriptLevels]

/-- The operators of an expression down to its primary expressions. -/
abbrev ExprTree := OpTree Expr (UnaryOp × Nat) Suffix BinaryOp

/-- An entry of the line that an expression is read from. -/
abbrev ExprItem := OpItem Expr (UnaryOp × Nat) Suffix BinaryOp

/-- An expression as a tree of operators. -/
def Expr.opTree : Expr → ExprTree
  | .call callee args span => .suffix callee.opTree (.call args span.stop)
  | .member owner property => .suffix owner.opTree (.member property)
  | .nonNull inner => .suffix inner.opTree .nonNull
  | .unary op operand span => .sign (op, span.start) operand.opTree
  | .binary op lhs rhs => .binary op lhs.opTree rhs.opTree
  | e => .leaf e

/-- Whether an expression has no operator at its top. -/
def Expr.isPrimary : Expr → Bool
  | .call _ _ _ | .member _ _ | .nonNull _ | .unary _ _ _ | .binary _ _ _ => false
  | _ => true

/-- The entry of the line that a piece is. -/
def Piece.item? : Piece → Option ExprItem
  | .sign op start => some (.sign (op, start))
  | .between op => some (.between op)
  | .suffix s => some (.suffix s)
  | p => p.primary?.map .leaf

mutual

/-- Whether a line starts with an operand: signs, a primary expression, and what may follow one. -/
def BeginsOperand : List ExprItem → Prop
  | .sign _ :: rest => BeginsOperand rest
  | .leaf e :: rest => e.isPrimary = true ∧ FollowsPrimary rest
  | _ => False

/-- Whether a line may follow a primary expression: suffixes, and then nothing or a binary operator
and one more operand. -/
def FollowsPrimary : List ExprItem → Prop
  | [] => True
  | .suffix _ :: rest => FollowsPrimary rest
  | .between _ :: rest => BeginsOperand rest
  | _ => False

end

/-! ### Trees of operands and chains -/

theorem opTree_of_isPrimary {e : Expr} (h : e.isPrimary = true) : e.opTree = .leaf e := by
  cases e <;> simp_all [Expr.isPrimary, Expr.opTree]

theorem opTree_applyAll (e : Expr) (suffixes : List Suffix) :
    (suffixes.foldl Suffix.apply e).opTree = suffixes.foldl .suffix e.opTree := by
  induction suffixes generalizing e with
  | nil => rfl
  | cons s suffixes ih =>
    have hs : (s.apply e).opTree = .suffix e.opTree s := by cases s <;> rfl
    rw [List.foldl_cons, ih, hs, List.foldl_cons]

theorem opTree_signAll (signs : List (UnaryOp × Nat)) (e : Expr) :
    (signs.foldr Operand.sign e).opTree = signs.foldr .sign e.opTree := by
  induction signs with
  | nil => rfl
  | cons s signs ih => simp only [List.foldr_cons, Operand.sign, Expr.opTree, ih]

theorem opTree_attach (e : Expr) (op : BinaryOp) (e' : Expr) :
    (e.attach op e').opTree = e.opTree.attach scriptLevels op e'.opTree := by
  fun_induction Expr.attach e op e' with
  | case1 op lhs rhs op' e' h ih =>
    rw [Expr.opTree, Expr.opTree, OpTree.attach, if_pos ((allowsRight_scriptLevels op op').mpr h), ih]
  | case2 op lhs rhs op' e' h =>
    rw [Expr.opTree, Expr.opTree, OpTree.attach, if_neg (mt (allowsRight_scriptLevels op op').mp h)]
  | case3 lhs op' e' h =>
    have hop : lhs.opTree.op? = none := by
      cases lhs with
      | binary op l r => exact (h op l r rfl).elim
      | _ => rfl
    rw [OpTree.attach_of_op?_eq_none hop, Expr.opTree]

def Operand.items (o : Operand) : List ExprItem :=
  o.signs.map .sign ++ .leaf o.primary :: o.suffixes.map .suffix

def linkLine (rest : List (BinaryOp × Operand)) : List ExprItem :=
  rest.flatMap fun link => .between link.1 :: link.2.items

theorem isBare_applyAll (t : ExprTree) (ht : t.IsBare) (suffixes : List Suffix) :
    (suffixes.foldl OpTree.suffix t).IsBare ∧
      (suffixes.foldl OpTree.suffix t).items = t.items ++ suffixes.map .suffix := by
  induction suffixes generalizing t with
  | nil => simp [ht]
  | cons s suffixes ih =>
    obtain ⟨hbare, hitems⟩ := ih (.suffix t s) ht
    exact ⟨hbare, by rw [List.foldl_cons, hitems]; simp [OpTree.items]⟩

theorem grouped_signAll (t : ExprTree) (ht : t.Grouped scriptLevels) (hop : t.op? = none)
    (signs : List (UnaryOp × Nat)) :
    (signs.foldr OpTree.sign t).Grouped scriptLevels ∧ (signs.foldr OpTree.sign t).op? = none ∧
      (signs.foldr OpTree.sign t).items = signs.map .sign ++ t.items := by
  induction signs with
  | nil => exact ⟨ht, hop, rfl⟩
  | cons s signs ih =>
    obtain ⟨hgrouped, hnone, hitems⟩ := ih
    exact ⟨⟨hnone, hgrouped⟩, rfl, by simp [OpTree.items, hitems]⟩

theorem opTree_operand (o : Operand) (h : o.primary.isPrimary = true) :
    o.toExpr.opTree.Grouped scriptLevels ∧ o.toExpr.opTree.op? = none ∧
      o.toExpr.opTree.items = o.items := by
  obtain ⟨hbare, hitems⟩ := isBare_applyAll (.leaf o.primary) trivial o.suffixes
  obtain ⟨hgrouped, hop, hline⟩ :=
    grouped_signAll _ (hbare.grouped scriptLevels) hbare.op?_eq_none o.signs
  rw [Operand.toExpr, opTree_signAll, opTree_applyAll, opTree_of_isPrimary h]
  exact ⟨hgrouped, hop, by rw [hline, hitems]; rfl⟩

/-- The tree of a chain is grouped and reads as the chain. -/
theorem opTree_chain (c : Chain) (hfirst : c.first.primary.isPrimary = true)
    (hrest : ∀ link ∈ c.rest, link.2.primary.isPrimary = true) :
    c.toExpr.opTree.Grouped scriptLevels ∧
      c.toExpr.opTree.items = c.first.items ++ linkLine c.rest := by
  have hfold : ∀ (rest : List (BinaryOp × Operand)) (e : Expr),
      (rest.foldl (fun tree link => tree.attach link.1 link.2.toExpr) e).opTree =
        e.opTree.attachAll scriptLevels (rest.map fun link => (link.1, link.2.toExpr.opTree)) := by
    intro rest
    induction rest with
    | nil => exact fun _ => rfl
    | cons link rest ih =>
      intro e
      rw [List.foldl_cons, ih, opTree_attach]
      rfl
  have hlinks : ∀ rest : List (BinaryOp × Operand),
      (∀ link ∈ rest, link.2.primary.isPrimary = true) →
      OpTree.linkItems (rest.map fun link => (link.1, link.2.toExpr.opTree)) = linkLine rest := by
    intro rest h
    induction rest with
    | nil => rfl
    | cons link rest ih =>
      obtain ⟨hlink, h⟩ := List.forall_mem_cons.mp h
      have := ih h
      simp only [OpTree.linkItems, linkLine, List.map_cons, List.flatMap_cons] at this ⊢
      rw [this, (opTree_operand link.2 hlink).2.2]
  obtain ⟨hgrouped, -, hitems⟩ := opTree_operand c.first hfirst
  rw [Chain.toExpr, hfold]
  refine ⟨hgrouped.attachAll fun link hlink => ?_, ?_⟩
  · obtain ⟨link', hlink', rfl⟩ := List.mem_map.mp hlink
    exact ⟨(opTree_operand _ (hrest link' hlink')).1, (opTree_operand _ (hrest link' hlink')).2.1⟩
  · rw [OpTree.items_attachAll, hitems, hlinks c.rest hrest]

/-! ### Chains of pieces -/

theorem extendChain_of_item {p : Piece} {i : ExprItem} (h : p.item? = some i) :
    match i with
    | .sign s => ∀ o rest, Piece.extendChain p ⟨[], some o, rest⟩ =
        some ⟨[], some ⟨s :: o.signs, o.primary, o.suffixes⟩, rest⟩
    | .leaf e => ∀ suffixes rest, Piece.extendChain p ⟨suffixes, none, rest⟩ =
        some ⟨[], some ⟨[], e, suffixes⟩, rest⟩
    | .suffix s => ∀ suffixes rest, Piece.extendChain p ⟨suffixes, none, rest⟩ =
        some ⟨s :: suffixes, none, rest⟩
    | .between op => ∀ o rest, Piece.extendChain p ⟨[], some o, rest⟩ =
        some ⟨[], none, (op, o) :: rest⟩ := by
  cases p <;> simp only [Piece.item?, Piece.primary?, Option.map_some, Option.map_none,
    Option.some.injEq, reduceCtorEq] at h <;> subst h <;> exact fun _ _ => rfl

/-- Pieces on a line are read as the chain whose line this is. -/
theorem chainEnd_of_items {ps : List Piece} {items : List ExprItem}
    (h : ps.mapM Piece.item? = some items) :
    (BeginsOperand items → ∃ o rest, Piece.chainEnd ps = some ⟨[], some o, rest⟩ ∧
      items = o.items ++ linkLine rest ∧ o.primary.isPrimary = true ∧
      ∀ link ∈ rest, link.2.primary.isPrimary = true) ∧
    (FollowsPrimary items → ∃ suffixes rest, Piece.chainEnd ps = some ⟨suffixes, none, rest⟩ ∧
      items = suffixes.map .suffix ++ linkLine rest ∧
      ∀ link ∈ rest, link.2.primary.isPrimary = true) := by
  induction ps generalizing items with
  | nil =>
    obtain rfl : items = [] := by simpa using h.symm
    exact ⟨fun hb => hb.elim, fun _ => ⟨[], [], rfl, rfl, by simp⟩⟩
  | cons p ps ih =>
    obtain ⟨i, hi, items', hitems', rfl⟩ : ∃ i, p.item? = some i ∧ ∃ items',
        ps.mapM Piece.item? = some items' ∧ items = i :: items' := by
      simp only [List.mapM_cons, Option.bind_eq_bind, Option.bind_eq_some_iff, Option.pure_def,
        Option.some.injEq] at h
      obtain ⟨i, hi, items', hitems', rfl⟩ := h
      exact ⟨i, hi, items', hitems', rfl⟩
    obtain ⟨ihb, ihf⟩ := ih hitems'
    have hstep := extendChain_of_item hi
    rw [Piece.chainEnd]
    cases i with
    | sign s =>
      refine ⟨fun hb => ?_, fun hf => hf.elim⟩
      obtain ⟨o, rest, hend, rfl, hprim, hrest⟩ := ihb hb
      refine ⟨⟨s :: o.signs, o.primary, o.suffixes⟩, rest, ?_, by simp [Operand.items], hprim, hrest⟩
      rw [hend, Option.bind_some, hstep o rest]
    | leaf e =>
      refine ⟨fun hb => ?_, fun hf => hf.elim⟩
      obtain ⟨suffixes, rest, hend, rfl, hrest⟩ := ihf hb.2
      refine ⟨⟨[], e, suffixes⟩, rest, ?_, by simp [Operand.items], hb.1, hrest⟩
      rw [hend, Option.bind_some, hstep suffixes rest]
    | suffix s =>
      refine ⟨fun hb => hb.elim, fun hf => ?_⟩
      obtain ⟨suffixes, rest, hend, rfl, hrest⟩ := ihf hf
      refine ⟨s :: suffixes, rest, ?_, by simp, hrest⟩
      rw [hend, Option.bind_some, hstep suffixes rest]
    | between op =>
      refine ⟨fun hb => hb.elim, fun hf => ?_⟩
      obtain ⟨o, rest, hend, rfl, hprim, hrest⟩ := ihb hf
      refine ⟨[], (op, o) :: rest, ?_, by simp [linkLine], ?_⟩
      · rw [hend, Option.bind_some, hstep o rest]
      · exact List.forall_mem_cons.mpr ⟨hprim, hrest⟩

/-- **The pieces of an expression become the one tree that the levels allow**: it is made, it reads as
the line of the pieces, it is grouped, and it is the only grouped tree that reads so. -/
theorem make_expr_grouped {ps : List Piece} {items : List ExprItem}
    (hitems : ps.mapM Piece.item? = some items) (hshape : BeginsOperand items)
    (start stop : Cursor) :
    ∃ e, Piece.make .expr start stop ps = some (.expr e) ∧ e.opTree.items = items ∧
      e.opTree.Grouped scriptLevels ∧
      ∀ t : ExprTree, t.items = items → t.Grouped scriptLevels → t = e.opTree := by
  obtain ⟨o, rest, hend, rfl, hprim, hrest⟩ := (chainEnd_of_items hitems).1 hshape
  obtain ⟨hgrouped, hline⟩ := opTree_chain ⟨o, rest⟩ hprim hrest
  have hchain : Piece.chain ps = some ⟨o, rest⟩ := by simp [Piece.chain, hend]
  refine ⟨(Chain.mk o rest).toExpr, ?_, hline, hgrouped, fun t ht htg => ?_⟩
  · exact Piece.make_eq_some_iff.mpr (.expr hchain)
  · exact OpTree.eq_of_items htg hgrouped (ht.trans hline.symm)

/-- The pieces of `-a.b + c * d`. -/
def sumPieces : List Piece :=
  [.sign .neg 0, .name ⟨"a", ⟨1, 2⟩⟩, .suffix (.member ⟨"b", ⟨3, 4⟩⟩), .between .add,
    .name ⟨"c", ⟨7, 8⟩⟩, .between .mul, .name ⟨"d", ⟨11, 12⟩⟩]

/-- The line of `-a.b + c * d`. -/
def sumLine : List ExprItem :=
  [.sign (.neg, 0), .leaf (.ident ⟨"a", ⟨1, 2⟩⟩), .suffix (.member ⟨"b", ⟨3, 4⟩⟩), .between .add,
    .leaf (.ident ⟨"c", ⟨7, 8⟩⟩), .between .mul, .leaf (.ident ⟨"d", ⟨11, 12⟩⟩)]

/-- The tree of `-a.b + c * d`: the product is an operand of the sum, and the sign stands before the
member. -/
def sumTree : ExprTree :=
  .binary .add
    (.sign (.neg, 0) (.suffix (.leaf (.ident ⟨"a", ⟨1, 2⟩⟩)) (.member ⟨"b", ⟨3, 4⟩⟩)))
    (.binary .mul (.leaf (.ident ⟨"c", ⟨7, 8⟩⟩)) (.leaf (.ident ⟨"d", ⟨11, 12⟩⟩)))

theorem sumPieces_grouped :
    sumPieces.mapM Piece.item? = some sumLine ∧ BeginsOperand sumLine ∧
      ∃ e, Piece.make .expr default default sumPieces = some (.expr e) ∧ e.opTree = sumTree ∧
        e.opTree.items = sumLine ∧ e.opTree.Grouped scriptLevels ∧
        ∀ t : ExprTree, t.items = sumLine → t.Grouped scriptLevels → t = sumTree := by
  have hitems : sumPieces.mapM Piece.item? = some sumLine := rfl
  have hshape : BeginsOperand sumLine := by simp [sumLine, BeginsOperand, FollowsPrimary, Expr.isPrimary]
  have hproduct : scriptLevels.AllowsRight .add .mul := by decide
  have htree : sumTree.Grouped scriptLevels := by
    simp [sumTree, OpTree.Grouped, OpTree.IsBare, OpTree.op?, hproduct]
  obtain ⟨e, hmake, hline, hgrouped, hone⟩ := make_expr_grouped hitems hshape default default
  have he : e.opTree = sumTree := (hone sumTree rfl htree).symm
  exact ⟨hitems, hshape, e, hmake, he, hline, hgrouped, he ▸ hone⟩

end LuaSnippet.Script
