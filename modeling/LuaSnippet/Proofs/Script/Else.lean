import LuaSnippet.Proofs.Script.Faithful
import LuaSnippet.Proofs.Script.Throughout

/-!
# The conditional of an else

A conditional tries to read an else behind its branch, and the statement that stands last in the branch
has tried so before, at the same place. So an else is never left to a conditional outside by one within
that could take it (`endsOpen_of_read`).
-/

namespace LuaSnippet.Script

open Peg (Answers Context Cursor Node Pattern)

/-! ### Chains of conditionals -/

/-- A conditional as a chain: its conditions, each with the branch that it guards, and the branch of the
else that the chain ends with. Any other statement is no more than such a branch. -/
def Stmt.chain : Stmt → List (Expr × Stmt) × Option Stmt
  | .cond test w none _ => ([(test, w)], none)
  | .cond test w (some rest) _ => ((test, w) :: rest.chain.1, rest.chain.2)
  | s => ([], some s)

/-- The statements of a branch, which stand in braces or alone. -/
def Stmt.branchBody : Stmt → List Stmt
  | .block body _ => body
  | s => [s]

/-! ### Statements that an else could belong to -/

/-- Whether a statement ends, through branches and loops without braces, in a conditional without an
else. -/
def Stmt.endsOpen : Stmt → Bool
  | .cond _ _ none _ => true
  | .cond _ _ (some rest) _ => rest.endsOpen
  | .forOf _ _ body _ => body.endsOpen
  | _ => false

/-- What a conditional tries to read behind its branch. -/
def elsePart : Pattern Rule := .seq (.call (.keyword .else)) (.call .statement)

/-! ### Nodes of a statement -/

variable {ctx : Context} {start stop : Cursor} {xs : List (Node Rule)} {parts : List Piece} {s : Stmt}

/-- Whether a statement was read from one place to another. -/
def ReadsAs (ctx : Context) (start stop : Cursor) (s : Stmt) : Prop :=
  ∃ xs p, Answers grammar ctx (.call .statement) start (some (xs, stop)) ∧
    Piece.ofNodes xs = some [p] ∧ p.stmt? = some s

/-- The rules of statements, in the order in which they are tried. -/
def Rule.statements : List Rule :=
  [declareStmt, interfaceDecl, typeAlias, functionDecl, varStmt, forOfStmt, ifStmt, returnStmt, block,
    emptyStmt, assignStmt, exprStmt]

theorem answers_statement (h : Answers grammar ctx (.call .statement) start (some (xs, stop)))
    (hctx : ctx.makesNodes = true) :
    ∃ r children, r.isStatement = true ∧ xs = [.mk r start stop children] ∧
      Answers grammar ctx (grammar.body r) start (some (children, stop)) := by
  obtain ⟨b, hb, hbody⟩ := (h.of_silent rfl).of_firstOf
  have hcall : b ∈ Rule.statements.map .call := hb
  obtain ⟨r, hmem, rfl⟩ := List.mem_map.mp hcall
  have hrules : ∀ r ∈ Rule.statements, r.isStatement = true ∧ Rule.manner r = .normal := by decide
  obtain ⟨hr, hmanner⟩ : r.isStatement = true ∧ grammar.manner r = .normal := hrules r hmem
  obtain ⟨children, rfl, hchildren⟩ := hbody.of_call (by rw [hmanner]; nofun) hctx
  rw [hmanner] at hchildren
  exact ⟨r, children, hr, rfl, hchildren⟩

theorem readsAs_of_answers (h : Answers grammar ctx (.call .statement) start (some (xs, stop)))
    (hctx : ctx.makesNodes = true) (hparts : Piece.ofNodes xs = some parts) :
    ∃ s, parts.filterMap Piece.stmt? = [s] ∧ ReadsAs ctx start stop s := by
  obtain ⟨r, children, hr, rfl, -⟩ := answers_statement h hctx
  have hkinds := isOf_ofNodes hparts
  obtain ⟨p, ps, hp, hps, rfl⟩ := List.forall₂_cons_left_iff.mp hkinds
  obtain rfl := List.forall₂_nil_left_iff.mp hps
  obtain ⟨s, hs⟩ := Piece.stmt?_of_isStatement hr p hp
  exact ⟨s, by simp [hs], [_], p, h, hparts, hs⟩

/-- The rule that a conditional or a loop is read by. -/
def Stmt.rule? : Stmt → Option Rule
  | .cond _ _ _ _ => some .ifStmt
  | .forOf _ _ _ _ => some .forOfStmt
  | _ => none

theorem rule_of_make {r r' : Rule} {p : Piece} (h : Piece.make r start stop parts = some p)
    (hs : p.stmt? = some s) (hr : s.rule? = some r') : r = r' := by
  cases Piece.make_eq_some_iff.mp h with
  | ifStmt | forOfStmt =>
    obtain rfl := Option.some.inj hs
    exact Option.some.inj hr
  | _ => cases hs <;> cases hr

/-- Whether the pieces of a rule are no statements. -/
def Rule.isPlain (r : Rule) : Bool :=
  r.isKeyword || r.isBinding || r = .expr || r = .varKind

theorem stmt?_of_isPlain {r : Rule} {p : Piece} (hr : r.isPlain = true) (hp : Piece.IsOf r p) :
    p.stmt? = none := by
  cases r with
  | keyword =>
    obtain rfl : p = _ := hp
    rfl
  | ident | arrayPattern | expr | varKind =>
    obtain ⟨_, rfl⟩ := hp
    rfl
  | _ => cases hr

theorem filterMap_stmt?_of_isOf {rs : List Rule} (hparts : List.Forall₂ Piece.IsOf rs parts)
    (hrs : ∀ r ∈ rs, r.isPlain = true) : parts.filterMap Piece.stmt? = [] := by
  induction hparts with
  | nil => rfl
  | cons hp _ ih =>
    obtain ⟨hr, hothers⟩ := List.forall_mem_cons.mp hrs
    rw [List.filterMap_cons_none (stmt?_of_isPlain hr hp), ih hothers]

theorem filterMap_stmt?_of_plain {a : Pattern Rule} (ha : ∀ r ∈ a.calls, r.isPlain = true)
    (h : Answers grammar ctx a start (some (xs, stop))) (hctx : ctx.makesNodes = true)
    (hparts : Piece.ofNodes xs = some parts) : parts.filterMap Piece.stmt? = [] := by
  have hsilent : ∀ r, grammar.manner r = .silent → r.isPlain = true →
      ∀ r' ∈ (grammar.body r).calls, r'.isPlain = true := by
    intro r hmanner hr
    cases r with
    | keyword | ident | arrayPattern | expr | varKind => cases hmanner
    | _ => cases hr
  have hrules := (h.derives _ rfl).rule_of_mem hsilent hctx ha
  exact filterMap_stmt?_of_isOf (isOf_ofNodes hparts) (List.forall_mem_map.mpr hrules)

theorem filterMap_stmt?_of_seq {a b : Pattern Rule} (ha : ∀ r ∈ a.calls, r.isPlain = true)
    (h : Answers grammar ctx (.seq a b) start (some (xs, stop))) (hctx : ctx.makesNodes = true)
    (hparts : Piece.ofNodes xs = some parts) :
    ∃ mid ys qs, Answers grammar ctx b mid (some (ys, stop)) ∧ Piece.ofNodes ys = some qs ∧
      parts.filterMap Piece.stmt? = qs.filterMap Piece.stmt? := by
  obtain ⟨zs, mid, ys, rfl, hfront, hbehind⟩ := h.of_seq
  obtain ⟨ps, qs, rfl, hps, hqs⟩ := ofNodes_append hparts
  refine ⟨_, ys, qs, hbehind, hqs, ?_⟩
  rw [List.filterMap_append, filterMap_stmt?_of_plain ha hfront hctx hps, List.nil_append]

theorem filterMap_stmt?_of_inOrder {a b : Pattern Rule} {front behind : List (Pattern Rule)}
    (hfront : ∀ a' ∈ a :: front, ∀ r ∈ a'.calls, r.isPlain = true)
    (h : Answers grammar ctx (.inOrder a (front ++ b :: behind)) start (some (xs, stop)))
    (hctx : ctx.makesNodes = true) (hparts : Piece.ofNodes xs = some parts) :
    ∃ mid ys qs, Answers grammar ctx (.inOrder b behind) mid (some (ys, stop)) ∧
      Piece.ofNodes ys = some qs ∧ parts.filterMap Piece.stmt? = qs.filterMap Piece.stmt? := by
  induction front generalizing a start xs parts with
  | nil => exact filterMap_stmt?_of_seq (hfront a (.head _)) h hctx hparts
  | cons a' front ih =>
    obtain ⟨ha, hrest⟩ := List.forall_mem_cons.mp hfront
    obtain ⟨_, _, _, hbehind, hqs, heq⟩ := filterMap_stmt?_of_seq ha h hctx hparts
    obtain ⟨mid, ys, qs, hanswers, hys, heq'⟩ := ih hrest hbehind hqs
    exact ⟨mid, ys, qs, hanswers, hys, heq.trans heq'⟩

/-! ### Conditionals and loops -/

/-- What was read behind the branch of a conditional, from the end of the branch to the end of the
conditional: nothing, as there is no else, or an else with a statement. -/
def ElseReads (ctx : Context) (mid stop : Cursor) : Option Stmt → Prop
  | none => Answers grammar ctx elsePart (grammar.pass ctx mid) none ∧ stop = grammar.pass ctx mid
  | some s => (∃ found, Answers grammar ctx elsePart (grammar.pass ctx mid) (some found)) ∧
      ∃ start, ReadsAs ctx start stop s

theorem elseReads_of_answers {mid : Cursor}
    (h : Answers grammar ctx (.opt elsePart) (grammar.pass ctx mid) (some (xs, stop)))
    (hctx : ctx.makesNodes = true) (hparts : Piece.ofNodes xs = some parts) :
    ∃ rest : Option Stmt, parts.filterMap Piece.stmt? = rest.toList ∧ ElseReads ctx mid stop rest := by
  rcases h.of_opt with ⟨rfl, hstop, hnone⟩ | hsome
  · obtain rfl := Option.some.inj hparts
    exact ⟨none, rfl, hnone, hstop⟩
  · obtain ⟨start, ys, qs, hstmt, hqs, heq⟩ := filterMap_stmt?_of_seq (by decide) hsome hctx hparts
    obtain ⟨s, hs, hreads⟩ := readsAs_of_answers hstmt hctx hqs
    exact ⟨some s, heq.trans hs, ⟨_, hsome⟩, start, hreads⟩

theorem reads_cond {p : Piece} {test : Expr} {w : Stmt} {rest : Option Stmt} {span : Span}
    (h : Answers grammar ctx (grammar.body .ifStmt) start (some (xs, stop)))
    (hctx : ctx.makesNodes = true) (hparts : Piece.ofNodes xs = some parts)
    (hmake : Piece.make .ifStmt start stop parts = some p)
    (hs : p.stmt? = some (.cond test w rest span)) :
    ∃ from' mid, ReadsAs ctx from' mid w ∧ ElseReads ctx mid stop rest := by
  have hbranches : parts.filterMap Piece.stmt? = w :: rest.toList := by
    cases Piece.make_eq_some_iff.mp hmake with
    | ifStmt _ hbranches =>
      cases hs
      exact hbranches
    | mark hr => cases hr
  have hbody : Answers grammar ctx (.inOrder (.call (.keyword .if))
      ([.lit "(", .call .expr, .lit ")"] ++ [.call .statement, .opt elsePart])) start
      (some (xs, stop)) := h
  obtain ⟨_, _, _, hbehind, hparts, heq⟩ :=
    filterMap_stmt?_of_inOrder (by decide) hbody hctx hparts
  obtain ⟨ws, mid, es, rfl, hbranch, helse⟩ := hbehind.of_seq
  obtain ⟨ps, qs, rfl, hps, hqs⟩ := ofNodes_append hparts
  obtain ⟨w', hw', hreads⟩ := readsAs_of_answers hbranch hctx hps
  obtain ⟨rest', hrest', hothers⟩ := elseReads_of_answers helse hctx hqs
  rw [heq, List.filterMap_append, hw', hrest'] at hbranches
  obtain ⟨rfl, htoList⟩ := List.cons.inj hbranches
  obtain rfl : rest' = rest := by simpa using congrArg List.head? htoList
  exact ⟨_, mid, hreads, hothers⟩

theorem reads_loop {p : Piece} {b : Binding} {iterable : Expr} {w : Stmt} {span : Span}
    (h : Answers grammar ctx (grammar.body .forOfStmt) start (some (xs, stop)))
    (hctx : ctx.makesNodes = true) (hparts : Piece.ofNodes xs = some parts)
    (hmake : Piece.make .forOfStmt start stop parts = some p)
    (hs : p.stmt? = some (.forOf b iterable w span)) : ∃ from', ReadsAs ctx from' stop w := by
  have hbody : Answers grammar ctx (.inOrder (.call (.keyword .for))
      ([.lit "(", .call .varKind, Rule.binding, .call (.keyword .of), .call .expr, .lit ")"] ++
        [.call .statement])) start (some (xs, stop)) := h
  obtain ⟨_, _, _, hstmt, hqs, heq⟩ := filterMap_stmt?_of_inOrder (by decide) hbody hctx hparts
  obtain ⟨w', hw', hreads⟩ := readsAs_of_answers hstmt hctx hqs
  have hfind : parts.findSome? Piece.stmt? = some w := by
    cases Piece.make_eq_some_iff.mp hmake with
    | forOfStmt _ _ hfind =>
      cases hs
      exact hfind
    | mark hr => cases hr
  rw [← List.head?_filterMap, heq, hw'] at hfind
  obtain rfl : w' = w := Option.some.inj hfind
  exact ⟨_, hreads⟩

/-! ### An else belongs to the nearest conditional -/

theorem ReadsAs.by_rule {r : Rule} (h : ReadsAs ctx start stop s) (hctx : ctx.makesNodes = true)
    (hr : s.rule? = some r) : ∃ children parts p,
      Answers grammar ctx (grammar.body r) start (some (children, stop)) ∧
      Piece.ofNodes children = some parts ∧ Piece.make r start stop parts = some p ∧
      p.stmt? = some s := by
  obtain ⟨xs, p, hanswers, hpieces, hs⟩ := h
  obtain ⟨r', children, -, rfl, hbody⟩ := answers_statement hanswers hctx
  obtain ⟨p', hp, hmap⟩ := Option.bind_eq_some_iff.mp hpieces
  obtain ⟨_, -, hcons⟩ := Option.map_eq_some_iff.mp hmap
  obtain ⟨rfl, -⟩ := List.cons.inj hcons
  obtain ⟨parts, hparts, hmake⟩ := Option.bind_eq_some_iff.mp hp
  obtain rfl := rule_of_make hmake hs hr
  exact ⟨children, parts, p', hbody, hparts, hmake, hs⟩

/-- Behind a statement that ends in a conditional without an else there is no else. The induction
follows the end of the statement down to that conditional, which has tried to read one. -/
theorem noElse_of_endsOpen (hs : s.endsOpen = true) (hctx : ctx.makesNodes = true)
    (h : ReadsAs ctx start stop s) : Answers grammar ctx elsePart (grammar.pass ctx stop) none := by
  fun_induction Stmt.endsOpen s generalizing start with
  | case1 test w span =>
    obtain ⟨_, _, _, hbody, hparts, hmake, hstmt⟩ := h.by_rule hctx rfl
    obtain ⟨_, mid, -, hnone, rfl⟩ := reads_cond hbody hctx hparts hmake hstmt
    rw [pass_pass]
    exact hnone
  | case2 test w rest span ih =>
    obtain ⟨_, _, _, hbody, hparts, hmake, hstmt⟩ := h.by_rule hctx rfl
    obtain ⟨_, mid, -, -, _, hrest⟩ := reads_cond hbody hctx hparts hmake hstmt
    exact ih hs hrest
  | case3 b iterable w span ih =>
    obtain ⟨_, _, _, hbody, hparts, hmake, hstmt⟩ := h.by_rule hctx rfl
    obtain ⟨_, hloop⟩ := reads_loop hbody hctx hparts hmake hstmt
    exact ih hs hloop
  | case4 => cases hs

/-- **An else belongs to the nearest conditional that can take it.** In the tree of a text, the branch
of a conditional with an else does not end in a conditional without one, through branches and loops
without braces. -/
theorem endsOpen_of_read {text : String} {body : List Stmt} (h : read text = .ok body) {test : Expr}
    {w rest : Stmt} {span : Span}
    (hs : ∃ t ∈ body, (Phrase.stmt (.cond test w (some rest) span)).Within (.stmt t)) :
    w.endsOpen = false := by
  obtain ⟨x, p, hx, hp, hstmt⟩ := exists_node_of_read h hs
  obtain ⟨parts, hparts, hmake⟩ : ∃ parts, Piece.ofNodes x.children = some parts ∧
      Piece.make x.rule x.start x.stop parts = some p := by
    cases x
    exact Option.bind_eq_some_iff.mp hp
  cases hx with
  | @mk ctx r start stop children hnode hbody _ =>
    obtain rfl : r = .ifStmt := rule_of_make hmake hstmt rfl
    have hctx : ctx.makesNodes = true := hnode
    obtain ⟨_, mid, hbranch, ⟨found, hfound⟩, -⟩ :=
      reads_cond hbody hctx hparts hmake hstmt
    apply Bool.eq_false_iff.mpr
    intro hopen
    cases hfound.unique (noElse_of_endsOpen hopen hctx hbranch)

end LuaSnippet.Script
