import LuaSnippet.Proofs.Peg.Calls
import LuaSnippet.Proofs.Peg.Limit
import LuaSnippet.Proofs.Script.Blanks
import LuaSnippet.Proofs.Script.Quoted
import LuaSnippet.Proofs.Script.Total

/-!
# Reading ends

Reading a text ends. Nothing that a rule leads to comes back to that rule without reading, neither among
the rules of the language nor among those of blanks, and every round of a repetition reads a character
(`reading_ends`). So a limit on the depth of calls that only depends on the length of a text is enough
for an answer, statements or a refusal, and a larger limit gives the same one (`readWithin_of_le`).
-/

namespace LuaSnippet.Script

open Peg (Answers Call Context Cursor Grammar Look)

/-- Reads a text with at most so many calls one within the other; there is no answer if that is not
enough. -/
def readWithin (limit : Nat) (text : String) : Option (Except Refusal (List Stmt)) :=
  match grammar.run limit ⟨.spaced, .none⟩ (.call .program) (Cursor.start text.toList) .empty with
  | .matched nodes _ _ => (statementsOf nodes).map .ok
  | .failed log => some (.error (.ofAttempts log))
  | .unfinished => none

theorem readWithin_limit (text : String) : readWithin (grammar.limit text.toList) text = read? text :=
  rfl

theorem readWithin_of_le {limit limit' : Nat} {text : String}
    {answer : Except Refusal (List Stmt)} (hle : limit ≤ limit')
    (h : readWithin limit text = some answer) : readWithin limit' text = some answer := by
  have hfinished : (grammar.run limit ⟨.spaced, .none⟩ (.call .program) (Cursor.start text.toList)
      .empty).IsFinished := by
    unfold readWithin at h
    split at h
    · rename_i hrun
      rw [hrun]
      trivial
    · rename_i hrun
      rw [hrun]
      trivial
    · cases h
  rw [← h, readWithin, readWithin, Grammar.run_of_le hle hfinished]

/-- A depth that is enough for every text of a length. -/
def depthFor (length : Nat) : Nat := length * Rule.depthBound + (Rule.program.rank + 1)

/-- **A limit for the length of a text is enough to read it.** The limit of the grammar is larger than
the one for the length, at which matching has ended, so both give the same answer. -/
theorem readWithin_depthFor (text : String) :
    readWithin (depthFor text.length) text = some (read text) := by
  have hfinished : (grammar.run (depthFor text.length) ⟨.spaced, .none⟩ (.call .program)
      (Cursor.start text.toList) .empty).IsFinished :=
    ranked_grammar.finished rfl (le_refl _)
  have hle : depthFor text.length ≤ grammar.limit text.toList := by
    have hdepth : grammar.depth = 950 := by decide
    show text.length * 60 + (48 + 1) ≤ (text.length + 1) * grammar.depth
    rw [hdepth]
    omega
  have hread : read? text = some (read text) := by
    obtain ⟨answer, hanswer⟩ := Option.isSome_iff_exists.mp (isSome_read? text)
    rw [read, hanswer, Option.getD_some]
  rw [← hread, ← readWithin_limit, readWithin, readWithin, Grammar.run_of_le hle hfinished]

/-- **Reading ends for every text.** A chain of calls that comes back to a rule stands further on, and
every round of a repetition reads a character, both for the rules of the language and for those of the
blanks that are passed over between tokens; so there is a limit, given by the length of a text alone,
within which the text is read or refused, and no larger limit changes what a limit gave. -/
theorem reading_ends :
    (∀ c d : Call Rule, Relation.TransGen grammar.Calls c d → d.rule = c.rule →
      c.place.offset < d.place.offset) ∧
    (∀ c d : Call BlankRule, Relation.TransGen blankGrammar.Calls c d → d.rule = c.rule →
      c.place.offset < d.place.offset) ∧
    (∀ r, ∀ a ∈ (grammar.body r).rounds, ∀ ctx cur xs stop,
      Answers grammar ctx a cur (some (xs, stop)) → stop.rest.length < cur.rest.length) ∧
    (∀ r, ∀ a ∈ (blankGrammar.body r).rounds, ∀ ctx cur xs stop,
      Answers blankGrammar ctx a cur (some (xs, stop)) → stop.rest.length < cur.rest.length) ∧
    (∀ look cur,
      Answers blankGrammar ⟨.atomic, look⟩ (.call .blanks) cur (some ([], grammar.skip cur))) ∧
    (∃ bound : Nat → Nat, ∀ text limit, bound text.length ≤ limit →
      readWithin limit text = some (read text)) ∧
    ∀ limit limit' text answer, limit ≤ limit' → readWithin limit text = some answer →
      readWithin limit' text = some answer :=
  ⟨fun _ _ => ranked_grammar.reads_of_return,
    fun _ _ => ranked_blankGrammar.reads_of_return,
    fun _ _ ha _ _ _ _ => ranked_grammar.reads_of_round ha,
    fun _ _ ha _ _ _ _ => ranked_blankGrammar.reads_of_round ha,
    answers_blanks,
    ⟨depthFor, fun text _ hle => readWithin_of_le hle (readWithin_depthFor text)⟩,
    fun _ _ _ _ => readWithin_of_le⟩

/-- The groups of `((1))` come back to their rule, the inner one a character behind the outer one. -/
theorem nested_groups_return :
    Relation.TransGen grammar.Calls ⟨openly, .parenExpr, ⟨0, "((1))".toList⟩⟩
        ⟨openly, .parenExpr, ⟨1, "(1))".toList⟩⟩ ∧
      0 < 1 ∧ readWithin (depthFor 5 + 1) "((1))" = some (read "((1))") := by
  have hgroup : grammar.Calls ⟨openly, .parenExpr, ⟨0, "((1))".toList⟩⟩
      ⟨openly, .expr, ⟨1, "(1))".toList⟩⟩ := .second .word (.first .call)
  have hsigns : Answers grammar openly (.many (.firstOf (.call (.unaryOp .not))
      [.call (.unaryOp .neg), .call (.unaryOp .bitNot)])) ⟨1, "(1))".toList⟩
      (some ([], ⟨1, "(1))".toList⟩)) := .noRound (answers_of_isRefused rfl)
  have hoperand : grammar.Calls ⟨openly, .expr, ⟨1, "(1))".toList⟩⟩
      ⟨openly, .primary, ⟨1, "(1))".toList⟩⟩ := .first (.second hsigns (.first .call))
  have hchoice : grammar.Calls ⟨openly, .primary, ⟨1, "(1))".toList⟩⟩
      ⟨openly, .parenExpr, ⟨1, "(1))".toList⟩⟩ := .right (answers_of_isRefused rfl) (.left .call)
  have hchain := Relation.TransGen.tail (.tail (.single hgroup) hoperand) hchoice
  obtain ⟨hreturn, -, -, -, -, -, hmore⟩ := reading_ends
  exact ⟨hchain, hreturn _ _ hchain rfl,
    hmore _ _ _ _ (Nat.le_succ _) (readWithin_depthFor "((1))")⟩

end LuaSnippet.Script
