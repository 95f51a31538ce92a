import LuaSnippet.Proofs.Script.Else
import LuaSnippet.Proofs.Lua.Branches
import LuaSnippet.Proofs.Lowering.Contained

/-!
# Conditionals keep their branches

A conditional whose else holds another conditional is one chain, in the script as in Lua. Lowering goes
along the chain, so that each condition keeps its branch, and what stands behind the last else stays
there (`conditionals_lower`).
-/

namespace LuaSnippet.Lowering

open Script (Expr Stmt Phrase)
open Lua (HasBranches IsLineEnd exprText stmtsText)

def lowerBranch (st : Setting) (ss : Scopes) (b : Expr × Stmt) : Lua.Expr × List Lua.Stmt :=
  (lowerExpr st ss b.1, lowerStmts st ([] :: ss) b.2.branchBody)

theorem lowerInner_eq (st : Setting) (ss : Scopes) (s : Stmt) :
    (lowerInner st ss s).1 = lowerStmts st ss s.branchBody := by
  cases s with
  | block => rfl
  | _ => exact (List.append_nil _).symm

theorem chain_lowerElse (st : Setting) (ss : Scopes) : ∀ s : Stmt,
    (lowerElse st ss (some s)).branches = s.chain.1.map (lowerBranch st ss) ∧
      (lowerElse st ss (some s)).other = s.chain.2.map fun w => lowerStmts st ([] :: ss) w.branchBody
  | .cond test w none _ => by
    rw [lowerElse, lowerInner_eq]
    exact ⟨rfl, rfl⟩
  | .cond test w (some rest) _ => by
    obtain ⟨hbranches, hother⟩ := chain_lowerElse st ss rest
    rw [lowerElse, lowerInner_eq]
    exact ⟨congrArg (_ :: ·) hbranches, hother⟩
  | .bind _ _ _ _ | .function _ _ _ _ | .assign _ _ _ | .forOf _ _ _ _ | .result _ _ | .block _ _
  | .expr _ | .declare _ _ | .typeOnly _ | .empty _ =>
    ⟨rfl, congrArg some (lowerInner_eq st ([] :: ss) _)⟩

theorem chain_lowerStmt (st : Setting) (ss : Scopes) (test : Expr) (w : Stmt) (rest : Option Stmt)
    (span : Script.Span) : ∃ first others,
      (lowerStmt st ss (.cond test w rest span)).1 = [.cond first.1 first.2 others] ∧
      first :: others.branches = (Stmt.cond test w rest span).chain.1.map (lowerBranch st ss) ∧
      others.other = (Stmt.cond test w rest span).chain.2.map fun e =>
        lowerStmts st ([] :: ss) e.branchBody := by
  refine ⟨lowerBranch st ss (test, w), lowerElse st ss rest, ?_, ?_⟩
  · rw [lowerBranch, ← lowerInner_eq]
    rfl
  · cases rest with
    | none => exact ⟨rfl, rfl⟩
    | some e =>
      obtain ⟨hbranches, hother⟩ := chain_lowerElse st ss e
      exact ⟨congrArg (_ :: ·) hbranches, hother⟩

/-- **Branches keep their conditions.** In the tree of every text that is read, an else belongs to the
nearest conditional that can take it: the branch of a conditional with an else does not end, through
branches and loops without braces, in a conditional without one. And in any scopes, for every dialect,
table of globals and depth, the Lua text of a conditional has, by the structure of its blocks, the
conditions of the chain in their order, each with the lowered form of the branch that it guards, and an
else exactly if the chain ends in one. -/
theorem conditionals_lower (st : Setting) {text newLine : String} {body : List Stmt}
    (hread : Script.read text = .ok body) (hline : IsLineEnd newLine) :
    ∀ test w rest span,
      (∃ t ∈ body, (Phrase.stmt (.cond test w rest span)).Within (.stmt t)) →
        (rest.isSome = true → w.endsOpen = false) ∧
        ∀ (ss : Scopes) (depth : Nat),
          HasBranches (stmtsText newLine depth (lowerStmt st ss (.cond test w rest span)).1)
            ((Stmt.cond test w rest span).chain.1.map fun b =>
              (exprText newLine depth (lowerExpr st ss b.1),
                stmtsText newLine (depth + 1) (lowerStmts st ([] :: ss) b.2.branchBody)))
            ((Stmt.cond test w rest span).chain.2.map fun e =>
              stmtsText newLine (depth + 1) (lowerStmts st ([] :: ss) e.branchBody)) := by
  intro test w rest span hwithin
  constructor
  · intro hrest
    obtain ⟨e, rfl⟩ := Option.isSome_iff_exists.mp hrest
    exact Script.endsOpen_of_read hread hwithin
  · intro ss depth
    obtain ⟨t, ht, hs⟩ := hwithin
    have hwell := (Script.wellFormed_of_read hread t ht).of_within hs
    have hprintable : Lua.StmtsPrintable (lowerStmt st ss (.cond test w rest span)).1 :=
      printable_lowerInner st ss _ hwell
    obtain ⟨first, others, hlower, hbranches, hother⟩ := chain_lowerStmt st ss test w rest span
    rw [hlower] at hprintable ⊢
    have hread := Lua.hasBranches_stmtsText hline depth hprintable.1
    rw [hbranches, hother, List.map_map, Option.map_map] at hread
    exact hread

/-- A conditional with a conditional in its branch, each with an else of its own. -/
def nestedText : String :=
  "if (a) if (b) f(); else g(); else if (c) h(); else k();"

theorem nestedText_branches : ∃ test w rest span,
    Script.read nestedText = .ok [.cond test w rest span] ∧ IsLineEnd "\n" ∧
    (∃ t ∈ [Stmt.cond test w rest span],
      (Phrase.stmt (.cond test w rest span)).Within (.stmt t)) ∧
    rest.isSome = true ∧ w.endsOpen = false ∧
    HasBranches (stmtsText "\n" 0 (lowerStmt bareSetting [[]] (.cond test w rest span)).1)
      [("a", "    if b then\n        f()\n    else\n        g()\n    end\n"), ("c", "    h()\n")]
      (some "    k()\n") := by
  have hlua : (Script.read nestedText).toOption.map (fun body => body.map fun s =>
      (s.chain.1.map (fun b => (exprText "\n" 0 (lowerExpr bareSetting [[]] b.1),
        stmtsText "\n" 1 (lowerStmts bareSetting [[], []] b.2.branchBody))),
      s.chain.2.map fun e => stmtsText "\n" 1 (lowerStmts bareSetting [[], []] e.branchBody))) =
        some [([("a", "    if b then\n        f()\n    else\n        g()\n    end\n"),
          ("c", "    h()\n")], some "    k()\n")] := by
    decide +kernel
  have hline : IsLineEnd "\n" := isLineEnd_of_eq (.inl rfl)
  cases hread : Script.read nestedText with
  | error refusal => simp [hread, Except.toOption] at hlua
  | ok body =>
    rw [hread] at hlua
    obtain ⟨s, rfl, hs⟩ := List.map_eq_singleton_iff.mp (Option.some.inj hlua)
    obtain ⟨hbranches, hother⟩ := Prod.mk.inj hs
    cases s with
    | cond test w rest span =>
      have hwithin : ∃ t ∈ [Stmt.cond test w rest span],
          (Phrase.stmt (.cond test w rest span)).Within (.stmt t) := ⟨_, .head _, .refl⟩
      obtain ⟨hopen, hread'⟩ := conditionals_lower bareSetting hread hline test w rest span hwithin
      have hrest : rest.isSome = true := by
        cases rest with
        | none => simp [Stmt.chain] at hother
        | some => rfl
      have htext := hread' [[]] 0
      rw [hbranches, hother] at htext
      exact ⟨test, w, rest, span, rfl, hline, hwithin, hrest, hopen hrest, htext⟩
    | _ => simp [Stmt.chain] at hbranches

end LuaSnippet.Lowering
