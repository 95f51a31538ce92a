import LuaSnippet.Proofs.Peg.Progress

/-!
# Matching ends

A grammar is ranked if no rule comes back to itself without reading a character, and every round of a
repetition reads one. Then between two characters only so many calls lie one within the other, and a
depth that grows with what is left of the text is never exhausted (`Ranked.finished`).
-/

namespace LuaSnippet.Peg

variable {R : Type}

namespace Pattern

/-- Whether a pattern may match without reading a character, given the rules that may. -/
def isNullable (null : R → Bool) : Pattern R → Bool
  | .word w => w.isEmpty
  | .char _ => false
  | .finish | .opt _ | .many _ | .further _ | .forbid _ => true
  | .seq a b => a.isNullable null && b.isNullable null
  | .alt a b => a.isNullable null || b.isNullable null
  | .call r => null r

/-- How deep the calls of a pattern go before a character is read, given how deep those of the rules
go. The second part of a sequence counts only if the first may read nothing. -/
def rank (null : R → Bool) (ranks : R → Nat) : Pattern R → Nat
  | .word _ | .char _ | .finish => 1
  | .seq a b =>
    max (a.rank null ranks) (if a.isNullable null then b.rank null ranks else 0) + 1
  | .alt a b => max (a.rank null ranks) (b.rank null ranks) + 1
  | .opt a | .many a | .further a | .forbid a => a.rank null ranks + 1
  | .call r => ranks r + 1

/-- Whether every round of a repetition reads a character, and no part goes deeper than a bound before
a character is read. -/
def isBounded (null : R → Bool) (ranks : R → Nat) (bound : Nat) : Pattern R → Bool
  | .word _ | .char _ | .finish | .call _ => true
  | .seq a b => a.isBounded null ranks bound && b.isBounded null ranks bound &&
    b.rank null ranks ≤ bound
  | .alt a b => a.isBounded null ranks bound && b.isBounded null ranks bound
  | .opt a | .forbid a => a.isBounded null ranks bound
  | .many a | .further a => a.isBounded null ranks bound && !a.isNullable null &&
    a.rank null ranks < bound

theorem rank_pos (null : R → Bool) (ranks : R → Nat) (p : Pattern R) : 0 < p.rank null ranks := by
  cases p <;> simp [rank]

end Pattern

/-- A grammar in which matching a rule calls rules of smaller rank only, as long as no character is
read. -/
structure Grammar.Ranked (g : Grammar R) (null : R → Bool) (ranks : R → Nat) (bound : Nat) :
    Prop where
  skipsAhead : g.SkipsAhead
  nullable : ∀ r, (g.body r).isNullable null = true → null r = true
  bounded : ∀ r, (g.body r).isBounded null ranks bound = true
  falls : ∀ r, (g.body r).rank null ranks ≤ ranks r

/-- Whether a match ended within its limit. -/
def Outcome.IsFinished : Outcome R → Prop
  | .matched _ _ _ | .failed _ => True
  | .unfinished => False

theorem finished_close {o : Outcome R} {ctx : Context} {r : R} {cur : Cursor} {before : Attempts R}
    (h : o.IsFinished) : (Grammar.close ctx r cur before o).IsFinished := by
  cases o with
  | matched | failed => trivial
  | unfinished => exact h

theorem le_of_length_lt {n m rank bound depth : Nat} (hlt : m < n) (hrank : rank ≤ bound)
    (hdepth : n * bound ≤ depth) : m * bound + rank ≤ depth := by
  have hstep : (m + 1) * bound ≤ n * bound := Nat.mul_le_mul_right bound hlt
  rw [Nat.succ_mul] at hstep
  omega

namespace Grammar.Ranked

variable {g : Grammar R} {null : R → Bool} {ranks : R → Nat} {bound : Nat}
  (hg : g.Ranked null ranks bound) {ctx : Context} {p : Pattern R} {cur stop : Cursor}
  {nodes : List (Node R)}

include hg

theorem length_lt (h : Derives g ctx p cur nodes stop) (hp : p.isNullable null = false) :
    stop.rest.length < cur.rest.length := by
  induction h with
  | @word ctx cur w stop h =>
    cases w with
    | nil => simp [Pattern.isNullable] at hp
    | cons c w =>
      rw [rest_of_take? h, List.length_append, List.length_cons]
      omega
  | char hrest _ =>
    rw [hrest]
    exact Nat.lt_succ_self _
  | finish | absent | noRound | noMore | forbid | present | round | more =>
    simp [Pattern.isNullable] at hp
  | @seq ctx a b cur mid stop xs ys ha hb iha ihb =>
    have hmid := (ha.leads hg.skipsAhead).length_le
    have hpass := (hg.skipsAhead.pass ctx mid).length_le
    have hstop := (hb.leads hg.skipsAhead).length_le
    rw [Pattern.isNullable, Bool.and_eq_false_iff] at hp
    rcases hp with hp | hp
    · have hread := iha hp
      omega
    · have hread := ihb hp
      omega
  | left _ ih =>
    rw [Pattern.isNullable, Bool.or_eq_false_iff] at hp
    exact ih hp.1
  | right _ ih =>
    rw [Pattern.isNullable, Bool.or_eq_false_iff] at hp
    exact ih hp.2
  | silent _ _ ih | call _ _ ih =>
    apply ih
    rw [Pattern.isNullable] at hp
    apply Bool.eq_false_iff.mpr
    intro hnull
    rw [hg.nullable _ hnull] at hp
    simp at hp

/-- Behind the first part of a sequence there is depth enough for the second: either the first part read
a character, or the second counts for the rank of the sequence. -/
theorem depth_behind {a b : Pattern R} {depth : Nat} (h : Derives g ctx a cur nodes stop)
    (hb : b.rank null ranks ≤ bound)
    (hdepth : cur.rest.length * bound + (Pattern.seq a b).rank null ranks ≤ depth + 1) :
    (g.pass ctx stop).rest.length * bound + b.rank null ranks ≤ depth := by
  have hstop := (h.leads hg.skipsAhead).length_le
  have hpass := (hg.skipsAhead.pass ctx stop).length_le
  rw [Pattern.rank] at hdepth
  by_cases hread : (g.pass ctx stop).rest.length < cur.rest.length
  · exact le_of_length_lt hread hb (by omega)
  · have hnull : a.isNullable null = true := by
      apply Bool.of_not_eq_false
      intro hnot
      have hlt := hg.length_lt h hnot
      omega
    have hsame : (g.pass ctx stop).rest.length = cur.rest.length := by omega
    rw [hnull, if_pos rfl] at hdepth
    rw [hsame]
    omega

/-- Behind a round of a repetition there is depth enough for a further one, as the round read a
character. -/
theorem depth_round {a : Pattern R} {depth : Nat} (h : Derives g ctx a cur nodes stop)
    (ha : (Pattern.further a).isBounded null ranks bound = true)
    (hdepth : cur.rest.length * bound ≤ depth) :
    stop.rest.length * bound + (Pattern.further a).rank null ranks ≤ depth := by
  simp only [Pattern.isBounded, Bool.and_eq_true, Bool.not_eq_true', decide_eq_true_eq] at ha
  exact le_of_length_lt (hg.length_lt h ha.1.2) ha.2 hdepth

/-- **Matching ends within a depth that grows with the characters left.** Induction on the depth: a
part at the same place has a smaller rank, and before a part at a later place a character was read. -/
theorem finished {depth : Nat} {log : Attempts R}
    (hp : p.isBounded null ranks bound = true)
    (hdepth : cur.rest.length * bound + p.rank null ranks ≤ depth) :
    (g.run depth ctx p cur log).IsFinished := by
  induction depth generalizing ctx p cur log with
  | zero =>
    have hpos := p.rank_pos null ranks
    omega
  | succ depth ih =>
    cases p with
    | word w =>
      rw [run]
      split <;> exact trivial
    | char q =>
      rw [run]
      split
      · split <;> exact trivial
      · exact trivial
    | finish =>
      rw [run]
      split <;> exact trivial
    | seq a b =>
      simp only [Pattern.isBounded, Bool.and_eq_true, decide_eq_true_eq] at hp
      have hrank : a.rank null ranks < (Pattern.seq a b).rank null ranks := by
        rw [Pattern.rank]
        omega
      have ha : (g.run depth ctx a cur log).IsFinished := ih hp.1.1 (by omega)
      rw [run]
      split
      · rename_i xs mid log' hmatched
        have hb : (g.run depth ctx b (g.pass ctx mid) log').IsFinished :=
          ih hp.1.2 (hg.depth_behind (derives_of_run hmatched) hp.2 hdepth)
        split
        · exact trivial
        · exact hb
      · exact ha
    | alt a b =>
      simp only [Pattern.isBounded, Bool.and_eq_true] at hp
      rw [Pattern.rank] at hdepth
      rw [run]
      split
      · exact ih hp.2 (by omega)
      · exact ih hp.1 (by omega)
    | opt a =>
      rw [Pattern.rank] at hdepth
      rw [run]
      split
      · exact trivial
      · exact ih hp (by omega)
    | many a =>
      have hparts := hp
      simp only [Pattern.isBounded, Bool.and_eq_true] at hparts
      rw [Pattern.rank] at hdepth
      have ha : (g.run depth ctx a cur log).IsFinished := ih hparts.1.1 (by omega)
      rw [run]
      split
      · rename_i mid log' hmatched
        have hmore : (g.run depth ctx (.further a) mid log').IsFinished :=
          ih hp (hg.depth_round (derives_of_run hmatched) hp (by omega))
        split
        · exact trivial
        · exact hmore
      · exact trivial
      · rename_i hunfinished
        rwa [hunfinished] at ha
    | further a =>
      have hparts := hp
      simp only [Pattern.isBounded, Bool.and_eq_true] at hparts
      rw [Pattern.rank] at hdepth
      have hpass : (g.pass ctx cur).rest.length * bound ≤ cur.rest.length * bound :=
        Nat.mul_le_mul_right bound (hg.skipsAhead.pass ctx cur).length_le
      have ha : (g.run depth ctx a (g.pass ctx cur) log).IsFinished := ih hparts.1.1 (by omega)
      rw [run]
      split
      · rename_i mid log' hmatched
        have hmore : (g.run depth ctx (.further a) mid log').IsFinished :=
          ih hp (hg.depth_round (derives_of_run hmatched) hp (by omega))
        split
        · exact trivial
        · exact hmore
      · exact trivial
      · rename_i hunfinished
        rwa [hunfinished] at ha
    | forbid a =>
      rw [Pattern.rank] at hdepth
      have ha : (g.run depth ctx.ahead a cur log).IsFinished := ih hp (by omega)
      rw [run]
      split
      · exact trivial
      · exact trivial
      · rename_i hunfinished
        rwa [hunfinished] at ha
    | call r =>
      have hfalls := hg.falls r
      rw [Pattern.rank] at hdepth
      have hbody : ∀ ctx, (g.run depth ctx (g.body r) cur log).IsFinished :=
        fun ctx => ih (hg.bounded r) (by omega)
      rw [run]
      split
      · exact hbody ctx
      · exact finished_close (hbody _)

end Grammar.Ranked

end LuaSnippet.Peg
