import LuaSnippet.Peg.Match

/-!
# Derivations

What a successful match says, without the limit on the depth of calls and without the record of
attempts: a pattern leads from one place to another and leaves nodes behind (`Derives`). Every node of
a match was left by the body of its rule (`Node.IsDerived`), the rules of the nodes are among those
that the pattern calls (`Derives.rule_of_mem`), and where no blanks are passed over the characters
between the two places are spelled by the pattern (`Derives.spells`).
-/

namespace LuaSnippet.Peg

variable {R : Type}

/-- What a rule that matched leaves: a node, or what its body leaves where no nodes are made. -/
def leave (ctx : Context) (r : R) (cur stop : Cursor) (nodes : List (Node R)) : List (Node R) :=
  if ctx.makesNodes then [.mk r cur stop nodes] else nodes

/-- A pattern leads from one place to another and leaves some nodes. -/
inductive Derives (g : Grammar R) :
    Context → Pattern R → Cursor → List (Node R) → Cursor → Prop where
  | word {ctx cur w stop} (h : cur.take? w = some stop) : Derives g ctx (.word w) cur [] stop
  | char {ctx cur p c cs} (hrest : cur.rest = c :: cs) (hp : p c = true) :
    Derives g ctx (.char p) cur [] (cur.past c cs)
  | finish {ctx cur} (hrest : cur.rest = []) : Derives g ctx .finish cur [] cur
  | seq {ctx a b cur mid stop xs ys} (ha : Derives g ctx a cur xs mid)
    (hb : Derives g ctx b (g.pass ctx mid) ys stop) : Derives g ctx (.seq a b) cur (xs ++ ys) stop
  | left {ctx a b cur stop xs} (ha : Derives g ctx a cur xs stop) :
    Derives g ctx (.alt a b) cur xs stop
  | right {ctx a b cur stop xs} (hb : Derives g ctx b cur xs stop) :
    Derives g ctx (.alt a b) cur xs stop
  | present {ctx a cur stop xs} (ha : Derives g ctx a cur xs stop) :
    Derives g ctx (.opt a) cur xs stop
  | absent {ctx a cur} : Derives g ctx (.opt a) cur [] cur
  | round {ctx a cur mid stop xs ys} (ha : Derives g ctx a cur xs mid)
    (hrest : Derives g ctx (.further a) mid ys stop) : Derives g ctx (.many a) cur (xs ++ ys) stop
  | noRound {ctx a cur} : Derives g ctx (.many a) cur [] cur
  | more {ctx a cur mid stop xs ys} (ha : Derives g ctx a (g.pass ctx cur) xs mid)
    (hrest : Derives g ctx (.further a) mid ys stop) :
    Derives g ctx (.further a) cur (xs ++ ys) stop
  | noMore {ctx a cur} : Derives g ctx (.further a) cur [] cur
  | forbid {ctx a cur} : Derives g ctx (.forbid a) cur [] cur
  | silent {ctx r cur stop xs} (hr : g.manner r = .silent)
    (hbody : Derives g ctx (g.body r) cur xs stop) : Derives g ctx (.call r) cur xs stop
  | call {ctx r cur stop xs} (hr : g.manner r ≠ .silent)
    (hbody : Derives g (ctx.inner (g.manner r)) (g.body r) cur xs stop) :
    Derives g ctx (.call r) cur (leave (ctx.outer (g.manner r)) r cur stop xs) stop

variable {g : Grammar R}

theorem eq_of_close_matched {ctx : Context} {r : R} {cur stop : Cursor} {before log : Attempts R}
    {nodes : List (Node R)} {o : Outcome R}
    (h : Grammar.close ctx r cur before o = .matched nodes stop log) :
    ∃ xs log', o = .matched xs stop log' ∧ nodes = leave ctx r cur stop xs := by
  cases o with
  | matched xs stop' log' =>
    simp only [Grammar.close, Outcome.matched.injEq] at h
    obtain ⟨rfl, rfl, -⟩ := h
    exact ⟨xs, log', rfl, rfl⟩
  | failed log' => simp [Grammar.close] at h
  | unfinished => simp [Grammar.close] at h

/-- **A match is a derivation.** -/
theorem Grammar.derives_of_run {depth : Nat} {ctx : Context} {p : Pattern R} {cur stop : Cursor}
    {log log' : Attempts R} {nodes : List (Node R)}
    (h : g.run depth ctx p cur log = .matched nodes stop log') : Derives g ctx p cur nodes stop := by
  induction depth generalizing ctx p cur log nodes stop log' with
  | zero => simp [Grammar.run] at h
  | succ depth ih =>
    cases p with
    | word w =>
      rw [Grammar.run] at h
      split at h
      · rename_i stop' hw
        obtain ⟨rfl, rfl, -⟩ := by simpa using h
        exact .word hw
      · simp at h
    | char p =>
      rw [Grammar.run] at h
      split at h
      · rename_i c cs hrest
        split at h
        · rename_i hp
          obtain ⟨rfl, rfl, -⟩ := by simpa using h
          exact .char hrest hp
        · simp at h
      · simp at h
    | finish =>
      rw [Grammar.run] at h
      split at h
      · rename_i hrest
        obtain ⟨rfl, rfl, -⟩ := by simpa using h
        exact .finish hrest
      · simp at h
    | seq a b =>
      rw [Grammar.run] at h
      split at h
      · rename_i ha
        split at h
        · rename_i hb
          obtain ⟨rfl, rfl, -⟩ := by simpa using h
          exact .seq (ih ha) (ih hb)
        · rename_i hother
          exact (hother _ _ _ h).elim
      · rename_i hother
        exact (hother _ _ _ h).elim
    | alt a b =>
      rw [Grammar.run] at h
      split at h
      · exact .right (ih h)
      · exact .left (ih h)
    | opt a =>
      rw [Grammar.run] at h
      split at h
      · obtain ⟨rfl, rfl, -⟩ := by simpa using h
        exact .absent
      · exact .present (ih h)
    | many a =>
      rw [Grammar.run] at h
      split at h
      · rename_i ha
        split at h
        · rename_i hrest
          obtain ⟨rfl, rfl, -⟩ := by simpa using h
          exact .round (ih ha) (ih hrest)
        · rename_i hother
          exact (hother _ _ _ h).elim
      · obtain ⟨rfl, rfl, -⟩ := by simpa using h
        exact .noRound
      · simp at h
    | further a =>
      rw [Grammar.run] at h
      split at h
      · rename_i ha
        split at h
        · rename_i hrest
          obtain ⟨rfl, rfl, -⟩ := by simpa using h
          exact .more (ih ha) (ih hrest)
        · rename_i hother
          exact (hother _ _ _ h).elim
      · obtain ⟨rfl, rfl, -⟩ := by simpa using h
        exact .noMore
      · simp at h
    | forbid a =>
      rw [Grammar.run] at h
      split at h
      · simp at h
      · obtain ⟨rfl, rfl, -⟩ := by simpa using h
        exact .forbid
      · simp at h
    | call r =>
      rw [Grammar.run] at h
      split at h
      · rename_i hr
        exact .silent hr (ih h)
      · rename_i hr
        obtain ⟨xs, log'', hbody, rfl⟩ := eq_of_close_matched h
        exact .call hr (ih hbody)

/-! ### Nodes of a derivation -/

/-- A node that the body of its rule left, where rules leave nodes, with all nodes within such. -/
inductive Node.IsDerived (g : Grammar R) : Node R → Prop where
  | mk {ctx : Context} {r start stop xs} (hnode : (ctx.outer (g.manner r)).makesNodes = true)
    (hbody : Derives g (ctx.inner (g.manner r)) (g.body r) start xs stop)
    (hwithin : ∀ x ∈ xs, IsDerived g x) : IsDerived g (.mk r start stop xs)

theorem Derives.isDerived {ctx : Context} {p : Pattern R} {cur stop : Cursor} {nodes : List (Node R)}
    (h : Derives g ctx p cur nodes stop) : ∀ x ∈ nodes, x.IsDerived g := by
  induction h with
  | word | char | finish | absent | noRound | noMore | forbid => simp
  | seq _ _ iha ihb | round _ _ iha ihb | more _ _ iha ihb =>
    intro x hx
    rcases List.mem_append.mp hx with hx | hx
    · exact iha x hx
    · exact ihb x hx
  | left _ ih | right _ ih | present _ ih | silent _ _ ih => exact ih
  | call hr hbody ih =>
    unfold leave
    split
    · rename_i hnode
      intro x hx
      rw [List.mem_singleton.mp hx]
      exact .mk hnode hbody ih
    · exact ih

/-- The rules that a pattern calls where it matches. -/
def Pattern.calls : Pattern R → List R
  | .word _ | .char _ | .finish | .forbid _ => []
  | .seq a b | .alt a b => a.calls ++ b.calls
  | .opt a | .many a | .further a => a.calls
  | .call r => [r]

theorem makesNodes_outer {ctx : Context} (hctx : ctx.makesNodes = true) (m : Manner) :
    (ctx.outer m).makesNodes = true := by
  cases m with
  | compound =>
    simp only [Context.makesNodes, Bool.and_eq_true, decide_eq_true_eq] at hctx
    simp [Context.makesNodes, Context.outer, hctx.1]
  | normal | atomic | silent => exact hctx

/-- The nodes of a derivation are of rules that the pattern calls. With a silent rule the rules that
its body calls count, so what holds of the rules is passed on from silent rules. -/
theorem Derives.rule_of_mem {P : R → Prop}
    (hP : ∀ r, g.manner r = .silent → P r → ∀ r' ∈ (g.body r).calls, P r') {ctx : Context}
    {p : Pattern R} {cur stop : Cursor} {nodes : List (Node R)} (h : Derives g ctx p cur nodes stop)
    (hctx : ctx.makesNodes = true) (hp : ∀ r ∈ p.calls, P r) : ∀ x ∈ nodes, P x.rule := by
  induction h with
  | word | char | finish | absent | noRound | noMore | forbid => simp
  | seq _ _ iha ihb =>
    rw [Pattern.calls, List.forall_mem_append] at hp
    exact List.forall_mem_append.mpr ⟨iha hctx hp.1, ihb hctx hp.2⟩
  | round _ _ iha ihb | more _ _ iha ihb =>
    exact List.forall_mem_append.mpr ⟨iha hctx hp, ihb hctx hp⟩
  | left _ ih =>
    rw [Pattern.calls, List.forall_mem_append] at hp
    exact ih hctx hp.1
  | right _ ih =>
    rw [Pattern.calls, List.forall_mem_append] at hp
    exact ih hctx hp.2
  | present _ ih => exact ih hctx hp
  | silent hr _ ih => exact ih hctx (hP _ hr (hp _ (by simp [Pattern.calls])))
  | @call ctx r cur stop xs hr hbody ih =>
    rw [leave, if_pos (makesNodes_outer hctx (g.manner r))]
    intro x hx
    rw [List.mem_singleton.mp hx]
    exact hp r (by simp [Pattern.calls])

/-! ### What a pattern spells -/

/-- The texts that a pattern matches where no blanks are passed over, look aheads left aside. -/
inductive Spells (g : Grammar R) : Pattern R → List Char → Prop where
  | word (w) : Spells g (.word w) w
  | char {p c} (hp : p c = true) : Spells g (.char p) [c]
  | finish : Spells g .finish []
  | seq {a b cs ds} (ha : Spells g a cs) (hb : Spells g b ds) : Spells g (.seq a b) (cs ++ ds)
  | left {a b cs} (ha : Spells g a cs) : Spells g (.alt a b) cs
  | right {a b cs} (hb : Spells g b cs) : Spells g (.alt a b) cs
  | present {a cs} (ha : Spells g a cs) : Spells g (.opt a) cs
  | absent {a} : Spells g (.opt a) []
  | many {a} (css : List (List Char)) (ha : ∀ cs ∈ css, Spells g a cs) :
    Spells g (.many a) css.flatten
  | further {a} (css : List (List Char)) (ha : ∀ cs ∈ css, Spells g a cs) :
    Spells g (.further a) css.flatten
  | forbid {a} : Spells g (.forbid a) []
  | call {r cs} (hbody : Spells g (g.body r) cs) : Spells g (.call r) cs

theorem rest_of_take? {cur stop : Cursor} {w : List Char} (h : cur.take? w = some stop) :
    cur.rest = w ++ stop.rest := by
  induction w generalizing cur with
  | nil =>
    obtain rfl : cur = stop := by simpa [Cursor.take?] using h
    rfl
  | cons d w ih =>
    rw [Cursor.take?] at h
    split at h
    · simp at h
    · rename_i c cs hrest
      split at h
      · rename_i hcd
        have hstop : cs = w ++ stop.rest := ih h
        rw [hrest, hstop, hcd]
        rfl
      · simp at h

theorem pass_of_ne_spaced {ctx : Context} (hctx : ctx.atomicity ≠ .spaced) (cur : Cursor) :
    g.pass ctx cur = cur := by
  rw [Grammar.pass, if_neg hctx]

/-- **Where no blanks are passed over, a pattern spells what it matches.** -/
theorem Derives.spells {ctx : Context} {p : Pattern R} {cur stop : Cursor} {nodes : List (Node R)}
    (h : Derives g ctx p cur nodes stop) (hctx : ctx.atomicity ≠ .spaced) :
    ∃ cs, cur.rest = cs ++ stop.rest ∧ Spells g p cs := by
  induction h with
  | word h => exact ⟨_, rest_of_take? h, .word _⟩
  | char hrest hp => exact ⟨[_], hrest, .char hp⟩
  | finish => exact ⟨[], rfl, .finish⟩
  | seq _ _ iha ihb =>
    obtain ⟨cs, hcs, ha⟩ := iha hctx
    obtain ⟨ds, hds, hb⟩ := ihb hctx
    rw [pass_of_ne_spaced hctx] at hds
    exact ⟨cs ++ ds, by rw [hcs, hds, List.append_assoc], .seq ha hb⟩
  | left _ ih =>
    obtain ⟨cs, hcs, ha⟩ := ih hctx
    exact ⟨cs, hcs, .left ha⟩
  | right _ ih =>
    obtain ⟨cs, hcs, hb⟩ := ih hctx
    exact ⟨cs, hcs, .right hb⟩
  | present _ ih =>
    obtain ⟨cs, hcs, ha⟩ := ih hctx
    exact ⟨cs, hcs, .present ha⟩
  | absent => exact ⟨[], rfl, .absent⟩
  | round _ _ iha ihb =>
    obtain ⟨cs, hcs, ha⟩ := iha hctx
    obtain ⟨ds, hds, hb⟩ := ihb hctx
    cases hb with
    | further css hcss =>
      refine ⟨(cs :: css).flatten, ?_, .many _ (List.forall_mem_cons.mpr ⟨ha, hcss⟩)⟩
      rw [hcs, hds, List.flatten_cons, List.append_assoc]
  | noRound => exact ⟨[], rfl, .many [] (by simp)⟩
  | more _ _ iha ihb =>
    obtain ⟨cs, hcs, ha⟩ := iha hctx
    obtain ⟨ds, hds, hb⟩ := ihb hctx
    rw [pass_of_ne_spaced hctx] at hcs
    cases hb with
    | further css hcss =>
      refine ⟨(cs :: css).flatten, ?_, .further _ (List.forall_mem_cons.mpr ⟨ha, hcss⟩)⟩
      rw [hcs, hds, List.flatten_cons, List.append_assoc]
  | noMore => exact ⟨[], rfl, .further [] (by simp)⟩
  | forbid => exact ⟨[], rfl, .forbid⟩
  | silent _ _ ih =>
    obtain ⟨cs, hcs, hbody⟩ := ih hctx
    exact ⟨cs, hcs, .call hbody⟩
  | @call ctx r cur stop xs _ _ ih =>
    have hinner : (ctx.inner (g.manner r)).atomicity ≠ .spaced := by
      cases g.manner r <;> simp [Context.inner, hctx]
    obtain ⟨cs, hcs, hbody⟩ := ih hinner
    exact ⟨cs, hcs, .call hbody⟩

theorem spells_word {w cs : List Char} : Spells g (.word w) cs ↔ cs = w := by
  constructor
  · rintro ⟨⟩
    rfl
  · rintro rfl
    exact .word _

theorem spells_char {p : Char → Bool} {cs : List Char} :
    Spells g (.char p) cs ↔ ∃ c, cs = [c] ∧ p c = true := by
  constructor
  · rintro (_ | hp)
    exact ⟨_, rfl, hp⟩
  · rintro ⟨c, rfl, hp⟩
    exact .char hp

theorem spells_seq {a b : Pattern R} {cs : List Char} :
    Spells g (.seq a b) cs ↔ ∃ xs ys, cs = xs ++ ys ∧ Spells g a xs ∧ Spells g b ys := by
  constructor
  · rintro (_ | _ | _ | ⟨ha, hb⟩)
    exact ⟨_, _, rfl, ha, hb⟩
  · rintro ⟨xs, ys, rfl, ha, hb⟩
    exact .seq ha hb

theorem spells_alt {a b : Pattern R} {cs : List Char} :
    Spells g (.alt a b) cs ↔ Spells g a cs ∨ Spells g b cs := by
  constructor
  · intro h
    cases h with
    | left ha => exact .inl ha
    | right hb => exact .inr hb
  · rintro (ha | hb)
    · exact .left ha
    · exact .right hb

theorem spells_opt {a : Pattern R} {cs : List Char} :
    Spells g (.opt a) cs ↔ cs = [] ∨ Spells g a cs := by
  constructor
  · intro h
    cases h with
    | present ha => exact .inr ha
    | absent => exact .inl rfl
  · rintro (rfl | ha)
    · exact .absent
    · exact .present ha

theorem spells_forbid {a : Pattern R} {cs : List Char} : Spells g (.forbid a) cs ↔ cs = [] := by
  constructor
  · rintro ⟨⟩
    rfl
  · rintro rfl
    exact .forbid

theorem spells_call {r : R} {cs : List Char} : Spells g (.call r) cs ↔ Spells g (g.body r) cs := by
  constructor
  · intro h
    cases h with
    | call hbody => exact hbody
  · exact .call

theorem Spells.of_many_char {p : Char → Bool} {cs : List Char}
    (h : Spells g (.many (.char p)) cs) : ∀ c ∈ cs, p c = true := by
  cases h with
  | many css ha =>
    intro c hc
    obtain ⟨cs, hcs, hmem⟩ := List.mem_flatten.mp hc
    obtain ⟨d, rfl, hd⟩ := spells_char.mp (ha cs hcs)
    rw [List.mem_singleton.mp hmem]
    exact hd

theorem Spells.of_repeated_char {p : Char → Bool} {cs : List Char}
    (h : Spells g (.repeated (.char p)) cs) : cs ≠ [] ∧ ∀ c ∈ cs, p c = true := by
  obtain ⟨xs, ys, rfl, hx, hy⟩ := spells_seq.mp h
  obtain ⟨c, rfl, hc⟩ := spells_char.mp hx
  exact ⟨by simp, List.forall_mem_cons.mpr ⟨hc, hy.of_many_char⟩⟩

theorem Cursor.textTo_eq {cur stop : Cursor} {cs : List Char} (h : cur.rest = cs ++ stop.rest) :
    cur.textTo stop = cs := by
  rw [Cursor.textTo, h, List.length_append, Nat.add_sub_cancel, List.take_left]

end LuaSnippet.Peg
