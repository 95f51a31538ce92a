import LuaSnippet.Proofs.Peg.Answer
import LuaSnippet.Proofs.Script.Total
import LuaSnippet.Proofs.Script.Soundness

/-!
# The statements of a tree

Expressions are put together from chains, and statements stand within functions within expressions, but
nothing makes a statement except the node it was read at. So what holds of the statement of every node
holds of every statement within the tree (`throughout_ofNode`), and every statement within the tree of
a text has a node of the match (`exists_node_of_read`).
-/

namespace LuaSnippet.Script

open Peg (Cursor Node)

inductive Phrase.Throughout (P : Stmt → Prop) : Phrase → Prop where
  | mk {x : Phrase} (h : ∀ s, x = .stmt s → P s) (hparts : ∀ y ∈ x.parts, Throughout P y) :
    Throughout P x

/-- Whether all statements within an expression are such. -/
abbrev Expr.Throughout (P : Stmt → Prop) (e : Expr) : Prop := (Phrase.expr e).Throughout P

/-- Whether a statement and all statements within it are such. -/
abbrev Stmt.Throughout (P : Stmt → Prop) (s : Stmt) : Prop := (Phrase.stmt s).Throughout P

variable {P : Stmt → Prop}

namespace Phrase.Throughout

variable {x y : Phrase}

theorem of_mem_parts (hx : x.Throughout P) (hy : y ∈ x.parts) : y.Throughout P := by
  cases hx with
  | mk _ hparts => exact hparts y hy

theorem of_within (hx : x.Throughout P) (h : y.Within x) : y.Throughout P := by
  induction h with
  | refl => exact hx
  | part hz _ ih => exact ih (hx.of_mem_parts hz)

theorem expr {e : Expr} (hparts : ∀ y ∈ (Phrase.expr e).parts, y.Throughout P) : e.Throughout P :=
  .mk nofun hparts

theorem stmt {s : Stmt} (hs : P s) (hparts : ∀ y ∈ (Phrase.stmt s).parts, y.Throughout P) :
    s.Throughout P :=
  .mk (fun _ heq => by cases heq; exact hs) hparts

end Phrase.Throughout

theorem Stmt.of_throughout {s : Stmt} (h : s.Throughout P) : P s := by
  cases h with
  | mk hs _ => exact hs s rfl

/-! ### Chains -/

/-- Whether all statements within the arguments of a suffix are such. -/
def Suffix.Throughout (P : Stmt → Prop) : Suffix → Prop
  | .call args _ => ∀ a ∈ args, a.value.Throughout P
  | .member _ | .nonNull => True

theorem throughout_binary {op : BinaryOp} {lhs rhs : Expr} :
    (Expr.binary op lhs rhs).Throughout P ↔ lhs.Throughout P ∧ rhs.Throughout P := by
  constructor
  · intro h
    exact ⟨h.of_mem_parts (.head _), h.of_mem_parts (.tail _ (.head _))⟩
  · rintro ⟨hlhs, hrhs⟩
    exact .expr (List.forall_mem_cons.mpr ⟨hlhs, List.forall_mem_singleton.mpr hrhs⟩)

theorem throughout_builds :
    Piece.Builds (Expr.Throughout P) (Expr.Throughout P) (Suffix.Throughout P) fun _ => True where
  apply {_ s} he hs := by
    cases s with
    | call args stop => exact .expr (List.forall_mem_cons.mpr ⟨he, List.forall_mem_map.mpr hs⟩)
    | member | nonNull => exact .expr (List.forall_mem_singleton.mpr he)
  bare he := he
  sign _ he := .expr (List.forall_mem_singleton.mpr he)
  binary := throughout_binary

/-! ### Pieces -/

namespace Piece

/-- Whether all statements within what a piece holds are such. -/
def Throughout (P : Stmt → Prop) : Piece → Prop
  | .stmt s => s.Throughout P
  | .block body _ => ∀ s ∈ body, s.Throughout P
  | .target e | .expr e => e.Throughout P
  | .suffix s => s.Throughout P
  | .arg a => a.value.Throughout P
  | .field f => f.value.Throughout P
  | _ => True

theorem throughout_expr? (p : Piece) (e : Expr) (h : p.expr? = some e) (hp : p.Throughout P) :
    e.Throughout P := by
  cases p <;> simp_all [expr?, Throughout]

theorem throughout_target? (p : Piece) (e : Expr) (h : p.target? = some e) (hp : p.Throughout P) :
    e.Throughout P := by
  cases p <;> simp_all [target?, Throughout]

theorem throughout_arg? (p : Piece) (a : Arg) (h : p.arg? = some a) (hp : p.Throughout P) :
    a.value.Throughout P := by
  cases p <;> simp_all [arg?, Throughout]

theorem throughout_field? (p : Piece) (f : Field) (h : p.field? = some f) (hp : p.Throughout P) :
    f.value.Throughout P := by
  cases p <;> simp_all [field?, Throughout]

theorem throughout_block? (p : Piece) (b : List Stmt × Span) (h : p.block? = some b)
    (hp : p.Throughout P) : ∀ s ∈ b.1, s.Throughout P := by
  cases p with
  | block body span =>
    obtain rfl := Option.some.inj h
    exact hp
  | _ => cases h

/-- A block becomes a statement only where a statement stands, so it has to be such itself. -/
theorem throughout_stmt? (p : Piece) (s : Stmt) (h : p.stmt? = some s)
    (hp : p.Throughout P ∧ ∀ s, p.stmt? = some s → P s) : s.Throughout P := by
  cases p with
  | stmt =>
    obtain rfl := Option.some.inj h
    exact hp.1
  | block body span =>
    obtain rfl := Option.some.inj h
    exact .stmt (hp.2 _ rfl) (List.forall_mem_map.mpr hp.1)
  | _ => cases h

theorem throughout_primary? {p : Piece} (hp : p.Throughout P) {e : Expr}
    (h : p.primary? = some e) : e.Throughout P := by
  cases p with
  | expr =>
    obtain rfl := Option.some.inj h
    exact hp
  | name | string =>
    obtain rfl := Option.some.inj h
    exact .expr nofun
  | _ => cases h

theorem throughout_members {ids : List Ident} {e : Expr} (he : e.Throughout P) :
    (ids.foldl .member e).Throughout P := by
  induction ids generalizing e with
  | nil => exact he
  | cons id ids ih => exact ih (.expr (List.forall_mem_singleton.mpr he))

/-- **The statements within the piece of a rule** are its own statement and those within the pieces
that it is made from. -/
theorem throughout_make {rule : Rule} {start stop : Cursor} {parts : List Piece}
    (hparts : ∀ p ∈ parts, p.Throughout P ∧ ∀ s, p.stmt? = some s → P s) {p : Piece}
    (h : make rule start stop parts = some p) (hown : ∀ s, p.stmt? = some s → P s) :
    p.Throughout P := by
  have hpieces : ∀ p ∈ parts, p.Throughout P := fun p hp => (hparts p hp).1
  have hexpr {e : Expr} (he : parts.findSome? expr? = some e) : e.Throughout P :=
    of_findSome? hpieces throughout_expr? he
  have hstmts : ∀ s ∈ parts.filterMap stmt?, s.Throughout P := of_filterMap hparts throughout_stmt?
  have hvalue : ∀ e ∈ (parts.findSome? expr?).toList, e.Throughout P :=
    of_find_toList hpieces throughout_expr?
  cases make_eq_some_iff.mp h with
  | program | block => exact hstmts
  | declareStmt | interfaceDecl | typeAlias | emptyStmt => exact .stmt (hown _ rfl) nofun
  | functionDecl _ hb =>
    exact .stmt (hown _ rfl) (List.forall_mem_map.mpr (of_findSome? hpieces throughout_block? hb))
  | varStmt | returnStmt => exact .stmt (hown _ rfl) (List.forall_mem_map.mpr hvalue)
  | forOfStmt _ he hs =>
    have hbody := of_findSome? hparts throughout_stmt? hs
    exact .stmt (hown _ rfl)
      (List.forall_mem_cons.mpr ⟨hexpr he, List.forall_mem_singleton.mpr hbody⟩)
  | @ifStmt test t other htest hbranches =>
    have hbranch : ∀ y ∈ (t :: other.toList).map Phrase.stmt, y.Throughout P :=
      List.forall_mem_map.mpr (hbranches ▸ hstmts)
    exact .stmt (hown _ rfl) (List.forall_mem_cons.mpr ⟨hexpr htest, hbranch⟩)
  | assignStmt ht he =>
    have htarget := of_findSome? hpieces throughout_target? ht
    exact .stmt (hown _ rfl)
      (List.forall_mem_cons.mpr ⟨htarget, List.forall_mem_singleton.mpr (hexpr he)⟩)
  | assignTarget => exact throughout_members (.expr nofun)
  | exprStmt he => exact .stmt (hown _ rfl) (List.forall_mem_singleton.mpr (hexpr he))
  | expr hc =>
    refine holds_of_chain throughout_builds (fun p hp => ?_) hc
    refine ⟨fun e => throughout_primary? (hpieces p hp), ?_, fun _ _ _ => trivial⟩
    rintro s rfl
    exact hpieces _ hp
  | callArgs => exact of_filterMap hpieces throughout_arg?
  | plainArg _ he | spreadArg _ he => exact hexpr he
  | closure hb =>
    exact .expr (List.forall_mem_map.mpr (of_findSome? hpieces throughout_block? hb))
  | arrow _ he | parenExpr he => exact .expr (List.forall_mem_singleton.mpr (hexpr he))
  | arrayLit => exact .expr (List.forall_mem_map.mpr (of_filterMap hpieces throughout_arg?))
  | objectLit => exact .expr (List.forall_mem_map.mpr (of_filterMap hpieces throughout_field?))
  | namedProperty heq | quotedProperty heq =>
    exact hpieces (.expr _) (by rw [heq]; exact List.mem_cons_of_mem _ List.mem_cons_self)
  | shortProperty | numberLit | trueLit | falseLit | absentLit => exact .expr nofun
  | _ => trivial

end Piece

/-! ### Nodes -/

section

variable (hP : ∀ x : Node Rule, x.IsAnswered grammar → ∀ p, Piece.ofNode x = some p →
  ∀ s, p.stmt? = some s → P s)

include hP

mutual

/-- **What holds of the statement of every node holds of every statement within the tree.** -/
theorem throughout_ofNode : ∀ x : Node Rule, x.IsAnswered grammar → ∀ p, Piece.ofNode x = some p →
    p.Throughout P
  | .mk rule start stop children, hx, p, h => by
    obtain ⟨parts, hparts, hmake⟩ := Option.bind_eq_some_iff.mp h
    have hchildren : ∀ x ∈ children, x.IsAnswered grammar := fun _ => hx.of_mem_children
    exact Piece.throughout_make (throughout_ofNodes children hchildren parts hparts) hmake
      (hP _ hx p h)

theorem throughout_ofNodes : ∀ xs : List (Node Rule), (∀ x ∈ xs, x.IsAnswered grammar) →
    ∀ ps, Piece.ofNodes xs = some ps →
      ∀ p ∈ ps, p.Throughout P ∧ ∀ s, p.stmt? = some s → P s
  | [], _, ps, h => by
    obtain rfl := Option.some.inj h
    exact nofun
  | x :: xs, hxs, ps, h => by
    obtain ⟨p, hp, hmap⟩ := Option.bind_eq_some_iff.mp h
    obtain ⟨qs, hqs, rfl⟩ := Option.map_eq_some_iff.mp hmap
    obtain ⟨hx, hrest⟩ := List.forall_mem_cons.mp hxs
    exact List.forall_mem_cons.mpr
      ⟨⟨throughout_ofNode x hx p hp, hP x hx p hp⟩, throughout_ofNodes xs hrest qs hqs⟩

end

end

/-- **Every statement of a text was read at a node of its match.** -/
theorem exists_node_of_read {text : String} {body : List Stmt} (h : read text = .ok body) {s : Stmt}
    (hs : ∃ t ∈ body, (Phrase.stmt s).Within (.stmt t)) :
    ∃ x p, x.IsAnswered grammar ∧ Piece.ofNode x = some p ∧ p.stmt? = some s := by
  obtain ⟨t, ht, hwithin⟩ := hs
  obtain ⟨nodes, stop, log, span, hmatched, hpieces⟩ := parse_of_read h
  have hnodes := (Peg.Grammar.answers_of_run hmatched trivial).isAnswered _ rfl
  have hthroughout := throughout_ofNodes
    (P := fun s => ∃ x p, x.IsAnswered grammar ∧ Piece.ofNode x = some p ∧ p.stmt? = some s)
    (fun x hx p hp s hs => ⟨x, p, hx, hp, hs⟩) nodes hnodes _ hpieces _ (.head _)
  have hbody : ∀ t ∈ body, t.Throughout _ := hthroughout.1
  exact Stmt.of_throughout ((hbody t ht).of_within hwithin)

end LuaSnippet.Script
