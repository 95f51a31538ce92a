import LuaSnippet.Proofs.Lowering.Grammatical
import LuaSnippet.Proofs.Lua.Trimmed
import LuaSnippet.Proofs.Script.Soundness
import LuaSnippet.Proofs.Session.Soundness

/-!
# Answers that are Lua

The answer of a successful run is the printed form of the snippet, without the white space around it. It
is a Lua script of its dialect whenever Lua has a form for all of the snippet (`run_isChunk`). The stages
before do not ask for that: a call in a group is answered with a text that is no Lua
(`grouped_statement_no_chunk`).
-/

namespace LuaSnippet.Session

open Script (Stmt)

variable {library : String} {disk : Disk} {declarations : Declarations} {s : Store} {d : Dialect}
  {snippet lua : String} {body : List Stmt}

theorem isChunk_lower (globals : Globals.Table) (hwell : ∀ s ∈ body, s.WellFormed)
    (hnone : Lowering.stmtsReports d body = []) (hregular : Script.stmtsRegular body = true) :
    Lua.IsChunk d (Text.trim (Lua.stmtsText "\n" 0 (Lowering.lower ⟨d, globals⟩ body))) := by
  have hline : Lua.IsLineEnd "\n" := ⟨by decide, List.all_eq_true.mp (by decide)⟩
  have hprintable := Lowering.printable_lowerStmts ⟨d, globals⟩ [[]] body hwell
  have hlegible : Lua.Legible (Lua.stmtsGroups "\n" 0 (Lowering.lower ⟨d, globals⟩ body)) := by
    have h := (Lua.legible_stmtsGroups_append hline 0 _ hprintable []).mpr Lua.legible_nil
    rwa [List.append_nil] at h
  have hgroups := Lua.solidGroups?_trim hlegible (Lua.allBalanced_stmtsGroups "\n" 0 hprintable)
  rw [Lua.charsOf_stmtsGroups, String.ofList_toList] at hgroups
  exact ⟨_, hgroups, Lua.derives_stmtsGroups "\n" 0 _
    (Lowering.grammatical_lower ⟨d, globals⟩ hwell hnone hregular)⟩

/-- **What a run answers with is Lua**: a text that the grammar of the dialect derives, if the snippet has
only what Lua has a form for. -/
theorem run_isChunk (hread : Script.read snippet = .ok body)
    (hregular : Script.stmtsRegular body = true)
    (hrun : (run ⟨library, Program.emit, declarations, s⟩ disk d snippet).1 = .ok lua) :
    Lua.IsChunk d lua := by
  obtain ⟨path, p, -, hp, hquiet, rfl⟩ := exists_of_run_eq_ok hrun
  have hstatements : (snippetFile snippet).statements = body := by
    simp only [snippetFile, Script.File.read, hread]
  have hreports := hquiet.lowered _ hp.snippet_mem (isDeclaration_snippetFile snippet)
  rw [hstatements] at hreports
  rw [luaOf, hstatements]
  exact isChunk_lower p.globals (Script.wellFormed_of_read hread) hreports hregular

/-- A disk with a declaration of one function, and an empty default library. -/
def printing : Disk :=
  ⟨[("t.d.ts", "declare function print(...values: any[]): void;"), ("lib/lib.d.ts", "")], [], .empty⟩

/-- A snippet with a function, a pattern and operators. -/
def tidy : String :=
  "const f = (a, ...b) => a + 0x2F;\nconst [c] = [!f(1)];"

def tidyLua : String :=
  "local f = function(a, ...) local b = \x7b...\x7d; return a + 0x2F end\nlocal c = table.unpack(\x7bnot f(1)\x7d)"

theorem tidy_isChunk : ∃ body, Script.read tidy = .ok body ∧ Script.stmtsRegular body = true ∧
    (run ⟨"lib", Program.emit, fun _ => some "t.d.ts", .empty⟩ printing .lua53 tidy).1 =
      .ok tidyLua ∧ Lua.IsChunk .lua53 tidyLua := by
  have hrun : (run ⟨"lib", Program.emit, fun _ => some "t.d.ts", .empty⟩ printing .lua53 tidy).1 =
      .ok tidyLua := by
    decide +kernel
  have hregular : (Script.read tidy).toOption.any Script.stmtsRegular = true := by decide +kernel
  cases hread : Script.read tidy with
  | error refusal => simp [hread, Except.toOption] at hregular
  | ok body =>
    rw [hread] at hregular
    exact ⟨body, rfl, hregular, hrun, run_isChunk hread hregular hrun⟩

/-- No stage finds anything wrong with a call in a group as a statement, and the answer is no Lua: the
grammar has no statement that is a group in parentheses. -/
theorem grouped_statement_no_chunk :
    (run ⟨"lib", Program.emit, fun _ => some "t.d.ts", .empty⟩ printing .lua53 "(print(1));").1 =
        .ok "(print(1))" ∧
      ¬ Lua.IsChunk .lua53 "(print(1))" := by
  refine ⟨by decide +kernel, ?_⟩
  rintro ⟨gs, hgs, hderives⟩
  have hgroups : Lua.solidGroups? "(print(1))" =
      some [.parens [.word "print", .parens [.word "1"]]] := by
    rfl
  obtain rfl : _ = gs := Option.some.inj (hgroups.symm.trans hgs)
  exact hderives.shaped _ rfl

end LuaSnippet.Session
