import LuaSnippet.Proofs.Peg.Derivation
import LuaSnippet.Proofs.Text.Boundary

/-!
# Forward only

Matching moves a cursor forward over characters of the text, and its offset by the bytes of these
characters (`Derives.leads`). So every place that a match leaves behind, in its nodes or in its record
of attempts, lies between two characters of the text (`Derives.ahead`, `furthest_of_run`). All of this
rests on one assumption about a grammar: passing over blanks moves forward as well.
-/

namespace LuaSnippet.Peg

open Text (byteLength byteLength_append)

variable {R : Type}

/-! ### From one cursor to another -/

/-- One cursor is some characters of the text behind another. -/
def Cursor.Leads (cur stop : Cursor) : Prop :=
  ∃ cs, cur.rest = cs ++ stop.rest ∧ stop.offset = cur.offset + byteLength cs

namespace Cursor.Leads

theorem refl (cur : Cursor) : cur.Leads cur := ⟨[], rfl, rfl⟩

theorem trans {cur mid stop : Cursor} (h : cur.Leads mid) (h' : mid.Leads stop) :
    cur.Leads stop := by
  obtain ⟨cs, hrest, hoffset⟩ := h
  obtain ⟨ds, hrest', hoffset'⟩ := h'
  refine ⟨cs ++ ds, ?_, ?_⟩
  · rw [hrest, hrest', List.append_assoc]
  · rw [hoffset', hoffset, byteLength_append, Nat.add_assoc]

theorem length_le {cur stop : Cursor} (h : cur.Leads stop) :
    stop.rest.length ≤ cur.rest.length := by
  obtain ⟨cs, hrest, -⟩ := h
  rw [hrest, List.length_append]
  exact Nat.le_add_left _ _

theorem past {cur : Cursor} {c : Char} {cs : List Char} (hrest : cur.rest = c :: cs) :
    cur.Leads (cur.past c cs) :=
  ⟨[c], hrest, rfl⟩

theorem take? {cur stop : Cursor} {w : List Char} (h : cur.take? w = some stop) :
    cur.Leads stop := by
  induction w generalizing cur with
  | nil =>
    obtain rfl : cur = stop := by simpa [Cursor.take?] using h
    exact refl cur
  | cons d w ih =>
    rw [Cursor.take?] at h
    split at h
    · simp at h
    · rename_i c cs hrest
      split at h
      · exact (past hrest).trans (ih h)
      · simp at h

theorem isBoundary {text : String} {stop : Cursor} (h : (start text.toList).Leads stop) :
    Text.IsBoundary text stop.offset := by
  obtain ⟨cs, hrest, hoffset⟩ := h
  exact ⟨cs, stop.rest, hrest, by rw [hoffset, start, Nat.zero_add]⟩

end Cursor.Leads

/-- Passing over blanks only moves forward. -/
def Grammar.SkipsAhead (g : Grammar R) : Prop :=
  ∀ cur : Cursor, cur.Leads (g.skip cur)

variable {g : Grammar R} {ctx : Context} {p : Pattern R} {cur stop : Cursor} {nodes : List (Node R)}

theorem Grammar.SkipsAhead.pass (hskip : g.SkipsAhead) (ctx : Context) (cur : Cursor) :
    cur.Leads (g.pass ctx cur) := by
  rw [Grammar.pass]
  split
  · exact hskip cur
  · exact .refl cur

/-! ### Derivations -/

theorem Derives.leads (hskip : g.SkipsAhead) (h : Derives g ctx p cur nodes stop) :
    cur.Leads stop := by
  induction h with
  | word h => exact .take? h
  | char hrest _ => exact .past hrest
  | finish | absent | noRound | noMore | forbid => exact .refl _
  | seq _ _ iha ihb => exact iha.trans ((hskip.pass _ _).trans ihb)
  | left _ ih | right _ ih | present _ ih | silent _ _ ih | call _ _ ih => exact ih
  | round _ _ iha ihb => exact iha.trans ihb
  | more _ _ iha ihb => exact (hskip.pass _ _).trans (iha.trans ihb)

/-- A node with everything within it starts and ends somewhere behind a cursor. -/
inductive Node.Ahead (cur : Cursor) : Node R → Prop where
  | mk {r start stop xs} (hstart : cur.Leads start) (hstop : start.Leads stop)
    (hwithin : ∀ x ∈ xs, Ahead cur x) : Ahead cur (.mk r start stop xs)

theorem Node.Ahead.of_leads {cur mid : Cursor} (h : cur.Leads mid) {x : Node R}
    (hx : x.Ahead mid) : x.Ahead cur := by
  induction hx with
  | mk hstart hstop _ ih => exact .mk (h.trans hstart) hstop ih

/-- **The nodes of a derivation lie behind the place where it started.** -/
theorem Derives.ahead (hskip : g.SkipsAhead) (h : Derives g ctx p cur nodes stop) :
    ∀ x ∈ nodes, x.Ahead cur := by
  induction h with
  | word | char | finish | absent | noRound | noMore | forbid => simp
  | seq ha _ iha ihb =>
    exact List.forall_mem_append.mpr
      ⟨iha, fun x hx => (ihb x hx).of_leads ((ha.leads hskip).trans (hskip.pass _ _))⟩
  | round ha _ iha ihb =>
    have hmid := ha.leads hskip
    exact List.forall_mem_append.mpr ⟨iha, fun x hx => (ihb x hx).of_leads hmid⟩
  | more ha _ iha ihb =>
    exact List.forall_mem_append.mpr
      ⟨fun x hx => (iha x hx).of_leads (hskip.pass _ _),
        fun x hx => (ihb x hx).of_leads ((hskip.pass _ _).trans (ha.leads hskip))⟩
  | left _ ih | right _ ih | present _ ih | silent _ _ ih => exact ih
  | @call ctx r cur stop xs _ hbody ih =>
    unfold leave
    split
    · exact List.forall_mem_singleton.mpr (.mk (.refl cur) (hbody.leads hskip) ih)
    · exact ih

/-! ### The record of attempts -/

theorem Attempts.furthest_enter (log before : Attempts R) (look : Look) (r : R) (place : Nat) :
    (log.enter before look r place).furthest = log.furthest ∨
      (log.enter before look r place).furthest = place := by
  have hrewind : (log.rewind before place).furthest = log.furthest ∨
      (log.rewind before place).furthest = place := by
    unfold rewind
    split
    · split
      · exact .inl rfl
      · exact .inl rfl
    · split
      · exact .inr rfl
      · exact .inl rfl
  unfold enter
  split
  · exact .inl rfl
  · dsimp only
    split
    · split <;> exact hrewind
    · exact hrewind

/-- Whether the furthest place on record at the end of a match has a property. -/
def Outcome.Reaches (P : Nat → Prop) : Outcome R → Prop
  | .matched _ _ log | .failed log => P log.furthest
  | .unfinished => True

variable {P : Nat → Prop} {log : Attempts R} {depth : Nat}

theorem reaches_close {r : R} {before : Attempts R} {o : Outcome R} (hplace : P cur.offset)
    (ho : o.Reaches P) : (Grammar.close ctx r cur before o).Reaches P := by
  have henter : ∀ log : Attempts R, P log.furthest →
      P (log.enter before ctx.look r cur.offset).furthest := by
    intro log hlog
    rcases log.furthest_enter before ctx.look r cur.offset with heq | heq
    · rwa [heq]
    · rwa [heq]
  cases o with
  | matched xs stop log =>
    show P (ite _ _ _ : Attempts R).furthest
    split
    · exact henter log ho
    · exact ho
  | failed log =>
    show P (ite _ _ _ : Attempts R).furthest
    split
    · exact henter log ho
    · exact ho
  | unfinished => trivial

/-- **The furthest place on record is one that matching came to.** Induction on the depth: what holds
of all places behind a cursor and of the record so far holds of the record at the end. -/
theorem furthest_of_run (hskip : g.SkipsAhead) (hcur : ∀ stop, cur.Leads stop → P stop.offset)
    (hlog : P log.furthest) : (g.run depth ctx p cur log).Reaches P := by
  induction depth generalizing ctx p cur log with
  | zero => trivial
  | succ depth ih =>
    -- behind a part that matched, the same holds for the rest
    have hbehind : ∀ {ctx a cur xs mid log log'}, (∀ stop, cur.Leads stop → P stop.offset) →
        g.run depth ctx a cur log = .matched xs mid log' → P log.furthest →
        (∀ stop, mid.Leads stop → P stop.offset) ∧ P log'.furthest := by
      intro ctx a cur xs mid log log' hcur ha hlog
      have hreach : (g.run depth ctx a cur log).Reaches P := ih hcur hlog
      rw [ha] at hreach
      exact ⟨fun stop hstop => hcur stop (((Grammar.derives_of_run ha).leads hskip).trans hstop),
        hreach⟩
    have hfailed : ∀ {ctx a cur log log'}, (∀ stop, cur.Leads stop → P stop.offset) →
        g.run depth ctx a cur log = .failed log' → P log.furthest → P log'.furthest := by
      intro ctx a cur log log' hcur ha hlog
      have hreach : (g.run depth ctx a cur log).Reaches P := ih hcur hlog
      rwa [ha] at hreach
    cases p with
    | word w =>
      rw [Grammar.run]
      split <;> exact hlog
    | char q =>
      rw [Grammar.run]
      split
      · split <;> exact hlog
      · exact hlog
    | finish =>
      rw [Grammar.run]
      split <;> exact hlog
    | seq a b =>
      rw [Grammar.run]
      split
      · rename_i xs mid log' ha
        obtain ⟨hmid, hlog'⟩ := hbehind hcur ha hlog
        have hpass : ∀ stop, (g.pass ctx mid).Leads stop → P stop.offset :=
          fun stop hstop => hmid stop ((hskip.pass ctx mid).trans hstop)
        have hb : (g.run depth ctx b (g.pass ctx mid) log').Reaches P := ih hpass hlog'
        split
        · rename_i hmatched
          rwa [hmatched] at hb
        · exact hb
      · exact ih hcur hlog
    | alt a b =>
      rw [Grammar.run]
      split
      · rename_i log' ha
        exact ih hcur (hfailed hcur ha hlog)
      · exact ih hcur hlog
    | opt a =>
      rw [Grammar.run]
      split
      · rename_i log' ha
        exact hfailed hcur ha hlog
      · exact ih hcur hlog
    | many a =>
      rw [Grammar.run]
      split
      · rename_i xs mid log' ha
        obtain ⟨hmid, hlog'⟩ := hbehind hcur ha hlog
        have hmore : (g.run depth ctx (.further a) mid log').Reaches P := ih hmid hlog'
        split
        · rename_i hmatched
          rwa [hmatched] at hmore
        · exact hmore
      · rename_i log' ha
        exact hfailed hcur ha hlog
      · trivial
    | further a =>
      have hpass : ∀ stop, (g.pass ctx cur).Leads stop → P stop.offset :=
        fun stop hstop => hcur stop ((hskip.pass ctx cur).trans hstop)
      rw [Grammar.run]
      split
      · rename_i xs mid log' ha
        obtain ⟨hmid, hlog'⟩ := hbehind hpass ha hlog
        have hmore : (g.run depth ctx (.further a) mid log').Reaches P := ih hmid hlog'
        split
        · rename_i hmatched
          rwa [hmatched] at hmore
        · exact hmore
      · rename_i log' ha
        exact hfailed hpass ha hlog
      · trivial
    | forbid a =>
      rw [Grammar.run]
      have ha : (g.run depth ctx.ahead a cur log).Reaches P := ih hcur hlog
      split
      · rename_i hmatched
        rwa [hmatched] at ha
      · rename_i hmissing
        rwa [hmissing] at ha
      · trivial
    | call r =>
      rw [Grammar.run]
      split
      · exact ih hcur hlog
      · exact reaches_close (hcur cur (.refl cur)) (ih hcur hlog)

end LuaSnippet.Peg
