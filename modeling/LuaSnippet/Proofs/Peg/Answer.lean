import LuaSnippet.Proofs.Peg.Derivation
import LuaSnippet.Proofs.Peg.Termination

/-!
# Answers

What a match says, also where it fails. A choice comes to its second part only if the first fails, and
an optional part is left out only if it does not match: a derivation says nothing of that, an answer
does (`Answers`). A pattern has at most one answer at a place (`Answers.unique`), so what was left out
somewhere is not found there by anyone.
-/

namespace LuaSnippet.Peg

variable {R : Type}

/-- Where a pattern led and what nodes it left, or nothing if it failed. -/
abbrev Answer (R : Type) := Option (List (Node R) × Cursor)

/-- An answer behind one that left some nodes. -/
def Answer.behind (xs : List (Node R)) (a : Answer R) : Answer R :=
  a.map fun found => (xs ++ found.1, found.2)

/-- The answer that a match gives if it ends. -/
def Outcome.answer : Outcome R → Answer R
  | .matched nodes stop _ => some (nodes, stop)
  | .failed _ | .unfinished => none

/-- What a pattern answers at a place. -/
inductive Answers (g : Grammar R) : Context → Pattern R → Cursor → Answer R → Prop where
  | word {ctx cur w} : Answers g ctx (.word w) cur ((cur.take? w).map ([], ·))
  | char {ctx cur p c cs} (hrest : cur.rest = c :: cs) :
    Answers g ctx (.char p) cur (if p c then some ([], cur.past c cs) else none)
  | noChar {ctx cur p} (hrest : cur.rest = []) : Answers g ctx (.char p) cur none
  | finish {ctx cur} :
    Answers g ctx .finish cur (if cur.rest = [] then some ([], cur) else none)
  | seq {ctx a b cur mid xs r} (ha : Answers g ctx a cur (some (xs, mid)))
    (hb : Answers g ctx b (g.pass ctx mid) r) : Answers g ctx (.seq a b) cur (r.behind xs)
  | noSeq {ctx a b cur} (ha : Answers g ctx a cur none) : Answers g ctx (.seq a b) cur none
  | left {ctx a b cur found} (ha : Answers g ctx a cur (some found)) :
    Answers g ctx (.alt a b) cur (some found)
  | right {ctx a b cur r} (ha : Answers g ctx a cur none) (hb : Answers g ctx b cur r) :
    Answers g ctx (.alt a b) cur r
  | present {ctx a cur found} (ha : Answers g ctx a cur (some found)) :
    Answers g ctx (.opt a) cur (some found)
  | absent {ctx a cur} (ha : Answers g ctx a cur none) :
    Answers g ctx (.opt a) cur (some ([], cur))
  | round {ctx a cur mid xs r} (ha : Answers g ctx a cur (some (xs, mid)))
    (hrest : Answers g ctx (.further a) mid r) : Answers g ctx (.many a) cur (r.behind xs)
  | noRound {ctx a cur} (ha : Answers g ctx a cur none) :
    Answers g ctx (.many a) cur (some ([], cur))
  | more {ctx a cur mid xs r} (ha : Answers g ctx a (g.pass ctx cur) (some (xs, mid)))
    (hrest : Answers g ctx (.further a) mid r) : Answers g ctx (.further a) cur (r.behind xs)
  | noMore {ctx a cur} (ha : Answers g ctx a (g.pass ctx cur) none) :
    Answers g ctx (.further a) cur (some ([], cur))
  | forbid {ctx a cur r} (ha : Answers g ctx.ahead a cur r) :
    Answers g ctx (.forbid a) cur (if r.isSome then none else some ([], cur))
  | silent {ctx r cur a} (hr : g.manner r = .silent) (hbody : Answers g ctx (g.body r) cur a) :
    Answers g ctx (.call r) cur a
  | call {ctx r cur a} (hr : g.manner r ≠ .silent)
    (hbody : Answers g (ctx.inner (g.manner r)) (g.body r) cur a) :
    Answers g ctx (.call r) cur
      (a.map fun found => (leave (ctx.outer (g.manner r)) r cur found.2 found.1, found.2))

variable {g : Grammar R} {ctx : Context} {p a b : Pattern R} {cur stop : Cursor}

/-! ### The answer of a match -/

theorem Outcome.answer_close {r : R} {before : Attempts R} (o : Outcome R) :
    (Grammar.close ctx r cur before o).answer =
      o.answer.map fun found => (leave ctx r cur found.2 found.1, found.2) := by
  cases o <;> rfl

theorem Outcome.isFinished_of_close {r : R} {before : Attempts R} {o : Outcome R}
    (h : (Grammar.close ctx r cur before o).IsFinished) : o.IsFinished := by
  cases o with
  | matched | failed => trivial
  | unfinished => exact h

theorem Outcome.answer_eq_none {o : Outcome R}
    (h : ∀ nodes stop log, o = .matched nodes stop log → False) : o.answer = none := by
  cases o with
  | matched nodes stop log => exact (h nodes stop log rfl).elim
  | failed | unfinished => rfl

/-- **A match that ends is an answer.** -/
theorem Grammar.answers_of_run {depth : Nat} {log : Attempts R} {o : Outcome R}
    (h : g.run depth ctx p cur log = o) (hend : o.IsFinished) : Answers g ctx p cur o.answer := by
  induction depth generalizing ctx p cur log o with
  | zero =>
    rw [← h] at hend
    exact hend.elim
  | succ depth ih =>
    cases p with
    | word w =>
      have hword : o.answer = (cur.take? w).map ([], ·) := by
        rw [← h, Grammar.run]
        cases cur.take? w <;> rfl
      rw [hword]
      exact .word
    | char p =>
      rw [Grammar.run] at h
      split at h
      · rename_i c cs hrest
        have hchar : o.answer = if p c then some ([], cur.past c cs) else none := by
          rw [← h]
          split <;> rfl
        rw [hchar]
        exact .char hrest
      · rename_i hrest
        subst h
        exact .noChar hrest
    | finish =>
      have hfinish : o.answer = if cur.rest = [] then some ([], cur) else none := by
        rw [← h, Grammar.run]
        cases cur.rest <;> rfl
      rw [hfinish]
      exact .finish
    | seq a b =>
      rw [Grammar.run] at h
      split at h
      · rename_i xs mid log' ha
        split at h
        · rename_i hb
          subst h
          exact .seq (ih ha trivial) (ih hb trivial)
        · rename_i hother
          have hb := ih h hend
          rw [Outcome.answer_eq_none (h ▸ hother)] at hb ⊢
          exact .seq (ih ha trivial) hb
      · rename_i hother
        have ha := ih h hend
        rw [Outcome.answer_eq_none (h ▸ hother)] at ha ⊢
        exact .noSeq ha
    | alt a b =>
      rw [Grammar.run] at h
      split at h
      · rename_i ha
        exact .right (ih ha trivial) (ih h hend)
      · rename_i hother
        have ha := ih h hend
        cases o with
        | matched => exact .left ha
        | failed log => exact (hother log h).elim
        | unfinished => exact hend.elim
    | opt a =>
      rw [Grammar.run] at h
      split at h
      · rename_i ha
        subst h
        exact .absent (ih ha trivial)
      · rename_i hother
        have ha := ih h hend
        cases o with
        | matched => exact .present ha
        | failed log => exact (hother log h).elim
        | unfinished => exact hend.elim
    | many a =>
      rw [Grammar.run] at h
      split at h
      · rename_i ha
        split at h
        · rename_i hrest
          subst h
          exact .round (ih ha trivial) (ih hrest trivial)
        · rename_i hother
          have hrest := ih h hend
          rw [Outcome.answer_eq_none (h ▸ hother)] at hrest ⊢
          exact .round (ih ha trivial) hrest
      · rename_i ha
        subst h
        exact .noRound (ih ha trivial)
      · subst h
        exact hend.elim
    | further a =>
      rw [Grammar.run] at h
      split at h
      · rename_i ha
        split at h
        · rename_i hrest
          subst h
          exact .more (ih ha trivial) (ih hrest trivial)
        · rename_i hother
          have hrest := ih h hend
          rw [Outcome.answer_eq_none (h ▸ hother)] at hrest ⊢
          exact .more (ih ha trivial) hrest
      · rename_i ha
        subst h
        exact .noMore (ih ha trivial)
      · subst h
        exact hend.elim
    | forbid a =>
      rw [Grammar.run] at h
      split at h
      · rename_i ha
        subst h
        exact .forbid (ih ha trivial)
      · rename_i ha
        subst h
        exact .forbid (ih ha trivial)
      · subst h
        exact hend.elim
    | call r =>
      rw [Grammar.run] at h
      split at h
      · rename_i hr
        exact .silent hr (ih h hend)
      · rename_i hr
        subst h
        rw [Outcome.answer_close]
        exact .call hr (ih rfl (Outcome.isFinished_of_close hend))

/-! ### One answer -/

/-- **A pattern has one answer at a place.** -/
theorem Answers.unique {r r' : Answer R} (h : Answers g ctx p cur r) (h' : Answers g ctx p cur r') :
    r = r' := by
  induction h generalizing r' with
  | word | finish =>
    cases h'
    rfl
  | char hrest =>
    cases h' with
    | char hrest' =>
      obtain ⟨rfl, rfl⟩ := List.cons.inj (hrest.symm.trans hrest')
      rfl
    | noChar hrest' => cases hrest.symm.trans hrest'
  | noChar hrest =>
    cases h' with
    | char hrest' => cases hrest.symm.trans hrest'
    | noChar => rfl
  | seq _ _ iha ihb =>
    cases h' with
    | seq ha' hb' =>
      cases iha ha'
      rw [ihb hb']
    | noSeq ha' => cases iha ha'
  | noSeq _ iha =>
    cases h' with
    | seq ha' hb' => cases iha ha'
    | noSeq ha' => rfl
  | left _ iha =>
    cases h' with
    | left ha' => exact iha ha'
    | right ha' _ => cases iha ha'
  | right _ _ iha ihb =>
    cases h' with
    | left ha' => cases iha ha'
    | right _ hb' => exact ihb hb'
  | present _ iha =>
    cases h' with
    | present ha' => exact iha ha'
    | absent ha' => cases iha ha'
  | absent _ iha =>
    cases h' with
    | present ha' => cases iha ha'
    | absent => rfl
  | round _ _ iha ihrest =>
    cases h' with
    | round ha' hrest' =>
      cases iha ha'
      rw [ihrest hrest']
    | noRound ha' => cases iha ha'
  | noRound _ iha =>
    cases h' with
    | round ha' _ => cases iha ha'
    | noRound => rfl
  | more _ _ iha ihrest =>
    cases h' with
    | more ha' hrest' =>
      cases iha ha'
      rw [ihrest hrest']
    | noMore ha' => cases iha ha'
  | noMore _ iha =>
    cases h' with
    | more ha' _ => cases iha ha'
    | noMore => rfl
  | forbid _ iha =>
    cases h' with
    | forbid ha' => rw [iha ha']
  | silent hr _ ih =>
    cases h' with
    | silent _ hbody' => exact ih hbody'
    | call hr' _ => exact absurd hr hr'
  | call hr _ ih =>
    cases h' with
    | silent hr' _ => exact absurd hr' hr
    | call _ hbody' => rw [ih hbody']

/-! ### What an answer is put together from -/

theorem Answers.derives {r : Answer R} (h : Answers g ctx p cur r) :
    ∀ found ∈ r, Derives g ctx p cur found.1 found.2 := by
  induction h with
  | word =>
    intro found hfound
    obtain ⟨stop, hstop, rfl⟩ := Option.map_eq_some_iff.mp hfound
    exact .word hstop
  | char hrest =>
    intro found hfound
    split at hfound
    · rename_i hp
      cases hfound
      exact .char hrest hp
    · cases hfound
  | finish =>
    intro found hfound
    split at hfound
    · rename_i hrest
      cases hfound
      exact .finish hrest
    · cases hfound
  | forbid =>
    intro found hfound
    split at hfound
    · cases hfound
    · cases hfound
      exact .forbid
  | noChar | noSeq => exact nofun
  | seq _ _ iha ihb =>
    intro found hfound
    obtain ⟨found', hfound', rfl⟩ := Option.map_eq_some_iff.mp hfound
    exact .seq (iha _ rfl) (ihb found' hfound')
  | round _ _ iha ihrest =>
    intro found hfound
    obtain ⟨found', hfound', rfl⟩ := Option.map_eq_some_iff.mp hfound
    exact .round (iha _ rfl) (ihrest found' hfound')
  | more _ _ iha ihrest =>
    intro found hfound
    obtain ⟨found', hfound', rfl⟩ := Option.map_eq_some_iff.mp hfound
    exact .more (iha _ rfl) (ihrest found' hfound')
  | left _ ih => exact fun found hfound => .left (ih found hfound)
  | right _ _ _ ih => exact fun found hfound => .right (ih found hfound)
  | present _ ih => exact fun found hfound => .present (ih found hfound)
  | absent =>
    rintro _ ⟨⟩
    exact .absent
  | noRound =>
    rintro _ ⟨⟩
    exact .noRound
  | noMore =>
    rintro _ ⟨⟩
    exact .noMore
  | silent hr _ ih => exact fun found hfound => .silent hr (ih found hfound)
  | call hr _ ih =>
    intro found hfound
    obtain ⟨found', hfound', rfl⟩ := Option.map_eq_some_iff.mp hfound
    exact .call hr (ih found' hfound')

theorem Answers.of_seq {xs : List (Node R)}
    (h : Answers g ctx (.seq a b) cur (some (xs, stop))) :
    ∃ ys mid zs, xs = ys ++ zs ∧ Answers g ctx a cur (some (ys, mid)) ∧
      Answers g ctx b (g.pass ctx mid) (some (zs, stop)) := by
  generalize hr : some (xs, stop) = r at h
  cases h with
  | @seq _ _ _ _ mid ys r ha hb =>
    obtain ⟨⟨zs, stop'⟩, rfl, hfound⟩ := Option.map_eq_some_iff.mp hr.symm
    cases hfound
    exact ⟨ys, mid, zs, rfl, ha, hb⟩
  | noSeq => cases hr

/-- An optional part was left out only if it does not match. -/
theorem Answers.of_opt {xs : List (Node R)} (h : Answers g ctx (.opt a) cur (some (xs, stop))) :
    (xs = [] ∧ stop = cur ∧ Answers g ctx a cur none) ∨ Answers g ctx a cur (some (xs, stop)) := by
  cases h with
  | present ha => exact .inr ha
  | absent ha => exact .inl ⟨rfl, rfl, ha⟩

theorem Answers.of_firstOf {bs : List (Pattern R)} {xs : List (Node R)}
    (h : Answers g ctx (.firstOf a bs) cur (some (xs, stop))) :
    ∃ b ∈ a :: bs, Answers g ctx b cur (some (xs, stop)) := by
  induction bs generalizing a with
  | nil => exact ⟨a, .head _, h⟩
  | cons b bs ih =>
    cases h with
    | left ha => exact ⟨a, .head _, ha⟩
    | right _ hb =>
      obtain ⟨c, hc, hanswers⟩ := ih hb
      exact ⟨c, .tail _ hc, hanswers⟩

theorem Answers.of_silent {r : R} {found : Answer R} (h : Answers g ctx (.call r) cur found)
    (hr : g.manner r = .silent) : Answers g ctx (g.body r) cur found := by
  cases h with
  | silent _ hbody => exact hbody
  | call hnot _ => exact absurd hr hnot

theorem Answers.of_call {r : R} {xs : List (Node R)}
    (h : Answers g ctx (.call r) cur (some (xs, stop))) (hr : g.manner r ≠ .silent)
    (hctx : ctx.makesNodes = true) :
    ∃ children, xs = [.mk r cur stop children] ∧
      Answers g (ctx.inner (g.manner r)) (g.body r) cur (some (children, stop)) := by
  generalize hfound : some (xs, stop) = found at h
  cases h with
  | silent hsilent => exact absurd hsilent hr
  | call _ hbody =>
    obtain ⟨⟨children, stop'⟩, rfl, heq⟩ := Option.map_eq_some_iff.mp hfound.symm
    rw [leave, if_pos (makesNodes_outer hctx _)] at heq
    cases heq
    exact ⟨children, rfl, hbody⟩

/-! ### Nodes of an answer -/

/-- A node that the body of its rule answered with, where rules leave nodes, with all nodes within
such. -/
inductive Node.IsAnswered (g : Grammar R) : Node R → Prop where
  | mk {ctx : Context} {r start stop xs} (hnode : (ctx.outer (g.manner r)).makesNodes = true)
    (hbody : Answers g (ctx.inner (g.manner r)) (g.body r) start (some (xs, stop)))
    (hwithin : ∀ x ∈ xs, IsAnswered g x) : IsAnswered g (.mk r start stop xs)

theorem Node.IsAnswered.of_mem_children {x y : Node R} (hx : x.IsAnswered g)
    (hy : y ∈ x.children) : y.IsAnswered g := by
  cases hx with
  | mk _ _ hwithin => exact hwithin y hy

theorem Answer.forall_mem_behind {P : Node R → Prop} {xs : List (Node R)} {r : Answer R}
    (hxs : ∀ x ∈ xs, P x) (hr : ∀ found ∈ r, ∀ x ∈ found.1, P x) :
    ∀ found ∈ r.behind xs, ∀ x ∈ found.1, P x := by
  intro found hfound
  obtain ⟨found', hfound', rfl⟩ := Option.map_eq_some_iff.mp hfound
  exact List.forall_mem_append.mpr ⟨hxs, hr found' hfound'⟩

theorem Answers.isAnswered {r : Answer R} (h : Answers g ctx p cur r) :
    ∀ found ∈ r, ∀ x ∈ found.1, x.IsAnswered g := by
  induction h with
  | word =>
    intro found hfound
    obtain ⟨_, -, rfl⟩ := Option.map_eq_some_iff.mp hfound
    exact nofun
  | char =>
    intro found hfound
    split at hfound
    · cases hfound
      exact nofun
    · cases hfound
  | finish =>
    intro found hfound
    split at hfound
    · cases hfound
      exact nofun
    · cases hfound
  | forbid =>
    intro found hfound
    split at hfound
    · cases hfound
    · cases hfound
      exact nofun
  | noChar | noSeq => exact nofun
  | absent | noRound | noMore =>
    rintro _ ⟨⟩
    exact nofun
  | seq _ _ iha ihb | round _ _ iha ihb | more _ _ iha ihb =>
    exact Answer.forall_mem_behind (iha _ rfl) ihb
  | left _ ih | right _ _ _ ih | present _ ih | silent _ _ ih => exact ih
  | call hr hbody ih =>
    intro found hfound
    obtain ⟨⟨children, stop⟩, rfl, rfl⟩ := Option.map_eq_some_iff.mp hfound
    have hchildren := ih _ rfl
    rw [leave]
    split
    · rename_i hnode
      exact List.forall_mem_singleton.mpr (.mk hnode hbody hchildren)
    · exact hchildren

end LuaSnippet.Peg
