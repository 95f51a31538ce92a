import LuaSnippet.Proofs.Lua.Boundary
import LuaSnippet.Proofs.Lua.Phrase
import LuaSnippet.Proofs.Lowering.Operators

/-!
# The statements of lowered scripts

The statements of a script are lowered one by one and printed on lines of their own, but for Lua a line
break is white space as any other. Where one statement ends with what can be called and the next one
starts with a group in parentheses, Lua goes on with a call (`grouped_callee_fused`). Between any other
two statements that Lua has a form for the boundary stays (`boundaries_lower`).
-/

namespace LuaSnippet.Lowering

open Lua (IsLineEnd Phrase StmtsGrammatical Reads solidGroups? solids stmtsText)

variable {newLine : String}

/-- **The boundaries of printed statements.** Every block of a lowered script is printed as its
statements one after the other. A statement of it is read on into the next one only where it may be,
and if the block is Lua, it is read statement by statement exactly when none may be. -/
theorem boundaries_lower {text : String} {body : List Script.Stmt} (hread : Script.read text = .ok body)
    (st : Setting) (hline : IsLineEnd newLine) (depth : Nat) {block : List Lua.Stmt}
    (hblock : (Phrase.block block).Within (.block (lower st body))) :
    solidGroups? (stmtsText newLine depth block) = some (solids newLine depth block).flatten ∧
      (block.IsChain fun s t => s.RunsInto st.dialect newLine depth t → s.MayGoOn t) ∧
      (StmtsGrammatical st.dialect block →
        (Reads st.dialect (solids newLine depth block).flatten (solids newLine depth block) ↔
          block.IsChain fun s t => ¬ s.MayGoOn t)) := by
  have hroot : (Phrase.block (lower st body)).Printable :=
    printable_lowerStmts st [[]] body (Script.wellFormed_of_read hread)
  have hprintable : Lua.StmtsPrintable block := hroot.within hblock
  refine ⟨?_, Lua.isChain_mayGoOn st.dialect newLine depth block hprintable,
    fun hgrammatical => Lua.reads_solids_iff newLine depth block hgrammatical hprintable⟩
  have hlegible : Lua.Legible (Lua.stmtsGroups newLine depth block) := by
    have h := (Lua.legible_stmtsGroups_append hline depth _ hprintable []).mpr Lua.legible_nil
    rwa [List.append_nil] at h
  have hgroups := Lua.solidGroups?_charsOf hlegible
    (Lua.allBalanced_stmtsGroups newLine depth hprintable)
  rwa [Lua.charsOf_stmtsGroups, String.ofList_toList, Lua.solidOf_stmtsGroups] at hgroups

/-- A declaration and an assignment, and a call of a group behind them. -/
def groupText : String := "const a = f(1); a.b = 2; (g)(a);"

theorem groupText_boundaries : ∃ body, Script.read groupText = .ok body ∧ IsLineEnd "\n" ∧
    stmtsText "\n" 0 (lower bareSetting body) = "local a = f(1)\na.b = 2\n(g)(a)\n" ∧
    (Phrase.block (lower bareSetting body)).Within (.block (lower bareSetting body)) ∧
    solidGroups? (stmtsText "\n" 0 (lower bareSetting body)) =
      some (solids "\n" 0 (lower bareSetting body)).flatten ∧
    (lower bareSetting body).IsChain fun s t => s.RunsInto .lua53 "\n" 0 t → s.MayGoOn t := by
  have htext : (Script.read groupText).toOption.map
      (fun body => stmtsText "\n" 0 (lower bareSetting body)) =
        some "local a = f(1)\na.b = 2\n(g)(a)\n" := by
    decide +kernel
  have hline : IsLineEnd "\n" := ⟨by decide, List.all_eq_true.mp (by decide)⟩
  cases hread : Script.read groupText with
  | error refusal => simp [hread, Except.toOption] at htext
  | ok body =>
    rw [hread] at htext
    have hboundaries := boundaries_lower hread bareSetting hline 0 (.refl)
    exact ⟨body, rfl, hline, Option.some.inj htext, .refl, hboundaries.1, hboundaries.2.1⟩

/-- A value that can be called, and behind it a statement that starts with a group: for Lua they are one
statement. -/
theorem grouped_callee_fused :
    (Script.read "const f = print; (f)(1);").toOption.map
        (fun body => stmtsText "\n" 0 (lower bareSetting body)) =
      some "local f = print\n(f)(1)\n" ∧
    ∃ gs, solidGroups? "local f = print\n(f)(1)\n" = some gs ∧ Lua.IsStatement .lua53 gs := by
  refine ⟨by decide +kernel, [.word "local", .word "f", .sign "=", .word "print",
    .parens [.word "f"], .parens [.word "1"]], rfl, .inl ?_⟩
  have hprint : Lua.Derives .lua53 .prefixed [.word "print"] := .ofVar (.name (by decide))
  have hf : Lua.Derives .lua53 .exp [.word "f"] := .prefixed (.ofVar (.name (by decide)))
  have hdigits : Lua.IsMantissa Char.isDigit ['1'] :=
    .whole (List.cons_ne_nil _ _) (List.forall_mem_singleton.mpr rfl)
  have hone : Lua.Derives .lua53 .exp [.word "1"] := .number (.decimal hdigits .none)
  have hcall := Lua.Derives.callOf hprint (.someArgs (.oneExp hf))
  have hfused := Lua.Derives.callOf (.ofCall hcall) (.someArgs (.oneExp hone))
  exact .localValues (.oneName (by decide)) (.oneExp (.prefixed (.ofCall hfused)))

end LuaSnippet.Lowering
