import LuaSnippet.Proofs.Peg.Answer

/-!
# More depth

A match that ends within a limit ends in the same way within every larger one (`run_of_le`): the limit
decides only whether there is an outcome, and never which.
-/

namespace LuaSnippet.Peg

variable {R : Type} {g : Grammar R} {ctx : Context} {p : Pattern R} {cur : Cursor}
  {log : Attempts R} {depth depth' : Nat}

theorem Outcome.isFinished_of_behind {xs : List (Node R)} {o : Outcome R}
    (h : (match o with
      | .matched ys stop log => .matched (xs ++ ys) stop log
      | other => other : Outcome R).IsFinished) : o.IsFinished := by
  cases o with
  | matched | failed => trivial
  | unfinished => exact h

/-- **More depth changes nothing about a match that ended.** Induction on the depth: a match that ended
had only parts that ended, and these have the same outcome at the larger depth. -/
theorem Grammar.run_of_le (hle : depth ≤ depth') (h : (g.run depth ctx p cur log).IsFinished) :
    g.run depth' ctx p cur log = g.run depth ctx p cur log := by
  induction depth generalizing ctx p cur log depth' with
  | zero => exact h.elim
  | succ depth ih =>
    obtain ⟨depth', rfl⟩ : ∃ n, depth' = n + 1 := ⟨depth' - 1, by omega⟩
    have hle : depth ≤ depth' := by omega
    cases p with
    | word | char | finish => rw [run, run]
    | seq a b =>
      rw [run] at h
      rw [run, run]
      cases ha : g.run depth ctx a cur log with
      | unfinished =>
        rw [ha] at h
        exact h.elim
      | failed => rw [ih hle (ha ▸ trivial), ha]
      | matched xs mid log' =>
        rw [ha] at h
        rw [ih hle (ha ▸ trivial), ha]
        simp only [ih hle (Outcome.isFinished_of_behind h)]
    | alt a b =>
      rw [run] at h
      rw [run, run]
      cases ha : g.run depth ctx a cur log with
      | unfinished =>
        rw [ha] at h
        exact h.elim
      | matched => rw [ih hle (ha ▸ trivial), ha]
      | failed log' =>
        rw [ha] at h
        rw [ih hle (ha ▸ trivial), ha]
        exact ih hle h
    | opt a =>
      rw [run] at h
      rw [run, run]
      cases ha : g.run depth ctx a cur log with
      | unfinished =>
        rw [ha] at h
        exact h.elim
      | matched | failed => rw [ih hle (ha ▸ trivial), ha]
    | many a =>
      rw [run] at h
      rw [run, run]
      cases ha : g.run depth ctx a cur log with
      | unfinished =>
        rw [ha] at h
        exact h.elim
      | failed => rw [ih hle (ha ▸ trivial), ha]
      | matched xs mid log' =>
        rw [ha] at h
        rw [ih hle (ha ▸ trivial), ha]
        simp only [ih hle (Outcome.isFinished_of_behind h)]
    | further a =>
      rw [run] at h
      rw [run, run]
      cases ha : g.run depth ctx a (g.pass ctx cur) log with
      | unfinished =>
        rw [ha] at h
        exact h.elim
      | failed => rw [ih hle (ha ▸ trivial), ha]
      | matched xs mid log' =>
        rw [ha] at h
        rw [ih hle (ha ▸ trivial), ha]
        simp only [ih hle (Outcome.isFinished_of_behind h)]
    | forbid a =>
      rw [run] at h
      rw [run, run]
      cases ha : g.run depth ctx.ahead a cur log with
      | unfinished =>
        rw [ha] at h
        exact h.elim
      | matched | failed => rw [ih hle (ha ▸ trivial), ha]
    | call r =>
      rw [run] at h
      rw [run, run]
      split at h
      · exact ih hle h
      · rw [ih hle (Outcome.isFinished_of_close h)]

end LuaSnippet.Peg
