import Mathlib.Data.Prod.Lex
import Mathlib.Logic.Relation
import LuaSnippet.Proofs.Peg.Answer

/-!
# Chains of calls

While a rule is matched, other rules are tried at the places that its body comes to, and from these
again others. In a ranked grammar every step of such a chain reads a character or goes down in rank
(`Ranked.falls_of_calls`), so a chain that comes back to a rule stands further on in the text
(`Ranked.reads_of_return`). And whatever a rule repeats reads a character in every round
(`Ranked.reads_of_round`).
-/

namespace LuaSnippet.Peg

variable {R : Type}

/-! ### The calls of a match -/

/-- A rule that is tried at a place, in some circumstances. -/
structure Call (R : Type) where
  context : Context
  rule : R
  place : Cursor

/-- While a pattern is matched at a place, a call is come to that lies in no other call. A later part
of the pattern is come to if the parts before it answered accordingly. -/
inductive Comes (g : Grammar R) : Context → Pattern R → Cursor → Call R → Prop where
  | call {ctx r cur} : Comes g ctx (.call r) cur ⟨ctx, r, cur⟩
  | first {ctx a b cur c} (h : Comes g ctx a cur c) : Comes g ctx (.seq a b) cur c
  | second {ctx a b cur mid xs c} (ha : Answers g ctx a cur (some (xs, mid)))
    (h : Comes g ctx b (g.pass ctx mid) c) : Comes g ctx (.seq a b) cur c
  | left {ctx a b cur c} (h : Comes g ctx a cur c) : Comes g ctx (.alt a b) cur c
  | right {ctx a b cur c} (ha : Answers g ctx a cur none) (h : Comes g ctx b cur c) :
    Comes g ctx (.alt a b) cur c
  | opt {ctx a cur c} (h : Comes g ctx a cur c) : Comes g ctx (.opt a) cur c
  | round {ctx a cur c} (h : Comes g ctx a cur c) : Comes g ctx (.many a) cur c
  | behindRound {ctx a cur mid xs c} (ha : Answers g ctx a cur (some (xs, mid)))
    (h : Comes g ctx (.further a) mid c) : Comes g ctx (.many a) cur c
  | more {ctx a cur c} (h : Comes g ctx a (g.pass ctx cur) c) : Comes g ctx (.further a) cur c
  | behindMore {ctx a cur mid xs c} (ha : Answers g ctx a (g.pass ctx cur) (some (xs, mid)))
    (h : Comes g ctx (.further a) mid c) : Comes g ctx (.further a) cur c
  | forbid {ctx a cur c} (h : Comes g ctx.ahead a cur c) : Comes g ctx (.forbid a) cur c

/-- One call leads to another while the body of its rule is matched. -/
def Grammar.Calls (g : Grammar R) (c d : Call R) : Prop :=
  Comes g (c.context.inner (g.manner c.rule)) (g.body c.rule) c.place d

/-- The parts that a pattern repeats. -/
def Pattern.rounds : Pattern R → List (Pattern R)
  | .word _ | .char _ | .finish | .call _ => []
  | .seq a b | .alt a b => a.rounds ++ b.rounds
  | .opt a | .forbid a => a.rounds
  | .many a | .further a => a :: a.rounds

variable {g : Grammar R} {ctx : Context} {p : Pattern R} {cur mid : Cursor} {c d : Call R}

theorem Answers.leads {xs : List (Node R)} (hskip : g.SkipsAhead)
    (h : Answers g ctx p cur (some (xs, mid))) : cur.Leads mid :=
  (h.derives _ rfl).leads hskip

theorem Comes.leads (hskip : g.SkipsAhead) (h : Comes g ctx p cur c) : cur.Leads c.place := by
  induction h with
  | call => exact .refl _
  | first _ ih | left _ ih | right _ _ ih | opt _ ih | round _ ih | forbid _ ih => exact ih
  | second ha _ ih => exact (ha.leads hskip).trans ((hskip.pass _ _).trans ih)
  | behindRound ha _ ih => exact (ha.leads hskip).trans ih
  | more _ ih => exact (hskip.pass _ _).trans ih
  | behindMore ha _ ih => exact (hskip.pass _ _).trans ((ha.leads hskip).trans ih)

theorem leads_of_calls (hskip : g.SkipsAhead) (h : Relation.TransGen g.Calls c d) :
    c.place.Leads d.place := by
  induction h with
  | single h => exact h.leads hskip
  | tail _ h ih => exact ih.trans (h.leads hskip)

/-! ### Calls of a ranked grammar -/

/-- The characters left and then the rank, by which calls are ordered. -/
def heightOf (cur : Cursor) (rank : Nat) : ℕ ×ₗ ℕ := toLex (cur.rest.length, rank)

theorem heightOf_lt {cur stop : Cursor} {m n : Nat} : heightOf stop m < heightOf cur n ↔
    stop.rest.length < cur.rest.length ∨ stop.rest.length = cur.rest.length ∧ m < n :=
  Prod.Lex.toLex_lt_toLex

theorem Pattern.isNullable_of_mem_rounds {null : R → Bool} {ranks : R → Nat} {bound : Nat}
    {a : Pattern R} (hp : p.isBounded null ranks bound = true) (ha : a ∈ p.rounds) :
    a.isNullable null = false := by
  induction p with
  | word | char | finish | call => exact absurd ha List.not_mem_nil
  | seq b c ihb ihc =>
    simp only [isBounded, Bool.and_eq_true] at hp
    exact (List.mem_append.mp ha).elim (ihb hp.1.1) (ihc hp.1.2)
  | alt b c ihb ihc =>
    simp only [isBounded, Bool.and_eq_true] at hp
    exact (List.mem_append.mp ha).elim (ihb hp.1) (ihc hp.2)
  | opt b ih | forbid b ih => exact ih hp ha
  | many b ih | further b ih =>
    simp only [isBounded, Bool.and_eq_true, Bool.not_eq_true'] at hp
    rcases List.mem_cons.mp ha with rfl | ha
    · exact hp.1.2
    · exact ih hp.1.1 ha

namespace Grammar.Ranked

variable {null : R → Bool} {ranks : R → Nat} {bound : Nat} (hg : g.Ranked null ranks bound)

include hg

theorem answer_length_lt {xs : List (Node R)} (h : Answers g ctx p cur (some (xs, mid)))
    (hp : p.isNullable null = false) : mid.rest.length < cur.rest.length :=
  hg.length_lt (h.derives _ rfl) hp

/-- What a pattern comes to stands behind a character, or has a smaller rank. Induction on how the call
is come to: the second part of a sequence is ranked with it only if the first may read nothing, and a
further round of a repetition stands behind a character in any case. -/
theorem falls_of_comes (h : Comes g ctx p cur c) (hp : p.isBounded null ranks bound = true) :
    heightOf c.place (ranks c.rule) < heightOf cur (p.rank null ranks) := by
  induction h with
  | call => exact heightOf_lt.mpr (.inr ⟨rfl, Nat.lt_succ_self _⟩)
  | first _ ih =>
    simp only [Pattern.isBounded, Bool.and_eq_true] at hp
    have hfalls := heightOf_lt.mp (ih hp.1.1)
    rw [heightOf_lt, Pattern.rank]
    omega
  | @second ctx a b cur mid xs c ha _ ih =>
    simp only [Pattern.isBounded, Bool.and_eq_true] at hp
    have hfalls := heightOf_lt.mp (ih hp.1.2)
    have hmid := (ha.leads hg.skipsAhead).length_le
    have hpass := (hg.skipsAhead.pass ctx mid).length_le
    rw [heightOf_lt, Pattern.rank]
    cases hnull : a.isNullable null with
    | true =>
      rw [if_pos rfl]
      omega
    | false =>
      have hread := hg.answer_length_lt ha hnull
      omega
  | left _ ih =>
    simp only [Pattern.isBounded, Bool.and_eq_true] at hp
    have hfalls := heightOf_lt.mp (ih hp.1)
    rw [heightOf_lt, Pattern.rank]
    omega
  | right _ _ ih =>
    simp only [Pattern.isBounded, Bool.and_eq_true] at hp
    have hfalls := heightOf_lt.mp (ih hp.2)
    rw [heightOf_lt, Pattern.rank]
    omega
  | opt _ ih | forbid _ ih =>
    have hfalls := heightOf_lt.mp (ih hp)
    rw [heightOf_lt, Pattern.rank]
    omega
  | round _ ih =>
    simp only [Pattern.isBounded, Bool.and_eq_true] at hp
    have hfalls := heightOf_lt.mp (ih hp.1.1)
    rw [heightOf_lt, Pattern.rank]
    omega
  | @more ctx a cur c _ ih =>
    simp only [Pattern.isBounded, Bool.and_eq_true] at hp
    have hfalls := heightOf_lt.mp (ih hp.1.1)
    have hpass := (hg.skipsAhead.pass ctx cur).length_le
    rw [heightOf_lt, Pattern.rank]
    omega
  | behindRound ha h _ =>
    simp only [Pattern.isBounded, Bool.and_eq_true, Bool.not_eq_true'] at hp
    have hread := hg.answer_length_lt ha hp.1.2
    have hplace := (h.leads hg.skipsAhead).length_le
    exact heightOf_lt.mpr (.inl (by omega))
  | @behindMore ctx a cur mid xs c ha h _ =>
    simp only [Pattern.isBounded, Bool.and_eq_true, Bool.not_eq_true'] at hp
    have hread := hg.answer_length_lt ha hp.1.2
    have hpass := (hg.skipsAhead.pass ctx cur).length_le
    have hplace := (h.leads hg.skipsAhead).length_le
    exact heightOf_lt.mpr (.inl (by omega))

theorem falls_of_calls (h : Relation.TransGen g.Calls c d) :
    heightOf d.place (ranks d.rule) < heightOf c.place (ranks c.rule) := by
  have hstep : ∀ {c d : Call R}, g.Calls c d →
      heightOf d.place (ranks d.rule) < heightOf c.place (ranks c.rule) := by
    intro c d h
    have hfalls := heightOf_lt.mp (hg.falls_of_comes h (hg.bounded c.rule))
    have hrank := hg.falls c.rule
    rw [heightOf_lt]
    omega
  induction h with
  | single h => exact hstep h
  | tail _ h ih => exact (hstep h).trans ih

/-- **A chain of calls that comes back to a rule has read something.** -/
theorem reads_of_return (h : Relation.TransGen g.Calls c d) (hrule : d.rule = c.rule) :
    c.place.offset < d.place.offset := by
  have hfalls := heightOf_lt.mp (hg.falls_of_calls h)
  rw [hrule] at hfalls
  obtain ⟨cs, hrest, hoffset⟩ := leads_of_calls hg.skipsAhead h
  cases cs with
  | nil =>
    rw [hrest, List.nil_append] at hfalls
    omega
  | cons e cs =>
    have hsize := e.utf8Size_pos
    rw [hoffset, Text.byteLength]
    omega

/-- **Every round of a repetition reads a character.** -/
theorem reads_of_round {r : R} {a : Pattern R} (ha : a ∈ (g.body r).rounds) {xs : List (Node R)}
    (h : Answers g ctx a cur (some (xs, mid))) : mid.rest.length < cur.rest.length :=
  hg.answer_length_lt h (Pattern.isNullable_of_mem_rounds (hg.bounded r) ha)

end Grammar.Ranked

end LuaSnippet.Peg
