import LuaSnippet.Proofs.Peg.Derivation

/-!
# The shape of what a pattern leaves

Which rules the nodes of a match are of, in their order, can be read off the pattern alone
(`Derives.leaves`). What a call leaves is given by a relation: a node of the rule itself, or what the
body leaves if the rule never appears in the tree.
-/

namespace LuaSnippet.Peg

variable {R : Type} {L : R → List R → Prop} {rs : List R}

/-- The rules of the nodes that a pattern may leave, in order, given what the calls in it may leave. -/
def Pattern.Leaves (L : R → List R → Prop) : Pattern R → List R → Prop
  | .word _, rs | .char _, rs | .finish, rs | .forbid _, rs => rs = []
  | .seq a b, rs => ∃ xs, a.Leaves L xs ∧ ∃ ys, b.Leaves L ys ∧ rs = xs ++ ys
  | .alt a b, rs => a.Leaves L rs ∨ b.Leaves L rs
  | .opt a, rs => rs = [] ∨ a.Leaves L rs
  | .many a, rs | .further a, rs => ∃ rss : List (List R), rs = rss.flatten ∧ ∀ xs ∈ rss, a.Leaves L xs
  | .call r, rs => L r rs

theorem Pattern.Leaves.forall_mem {P : R → Prop} {p : Pattern R}
    (hp : ∀ r ∈ p.calls, ∀ rs, L r rs → ∀ x ∈ rs, P x) (h : p.Leaves L rs) : ∀ x ∈ rs, P x := by
  induction p generalizing rs with
  | word | char | finish | forbid =>
    rw [h]
    simp
  | seq a b iha ihb =>
    rw [calls, List.forall_mem_append] at hp
    obtain ⟨xs, ha, ys, hb, rfl⟩ := h
    exact List.forall_mem_append.mpr ⟨iha hp.1 ha, ihb hp.2 hb⟩
  | alt a b iha ihb =>
    rw [calls, List.forall_mem_append] at hp
    rcases h with ha | hb
    · exact iha hp.1 ha
    · exact ihb hp.2 hb
  | opt a ih =>
    rcases h with rfl | ha
    · simp
    · exact ih hp ha
  | many a ih | further a ih =>
    obtain ⟨rss, rfl, ha⟩ := h
    intro x hx
    obtain ⟨xs, hxs, hmem⟩ := List.mem_flatten.mp hx
    exact ih hp (ha xs hxs) x hmem
  | call r => exact hp r (List.mem_singleton.mpr rfl) rs h

theorem Pattern.leaves_firstOf {a : Pattern R} {bs : List (Pattern R)} :
    (firstOf a bs).Leaves L rs ↔ ∃ b ∈ a :: bs, b.Leaves L rs := by
  induction bs generalizing a with
  | nil => simp [firstOf]
  | cons b bs ih =>
    rw [firstOf, Leaves, ih]
    simp

variable {g : Grammar R}

/-- A relation says what every call leaves. -/
structure Grammar.Shapes (g : Grammar R) (L : R → List R → Prop) : Prop where
  call : ∀ r, g.manner r ≠ .silent → L r [r]
  silent : ∀ r rs, g.manner r = .silent → (g.body r).Leaves L rs → L r rs

/-- **What a match leaves has the shape of the pattern.** -/
theorem Derives.leaves (hg : g.Shapes L) {ctx : Context} {p : Pattern R} {cur stop : Cursor}
    {nodes : List (Node R)} (h : Derives g ctx p cur nodes stop) (hctx : ctx.makesNodes = true) :
    p.Leaves L (nodes.map Node.rule) := by
  induction h with
  | word | char | finish | forbid => rfl
  | seq _ _ iha ihb => exact ⟨_, iha hctx, _, ihb hctx, List.map_append⟩
  | left _ ih => exact .inl (ih hctx)
  | right _ ih | present _ ih => exact .inr (ih hctx)
  | absent => exact .inl rfl
  | round _ _ iha ihb | more _ _ iha ihb =>
    obtain ⟨rss, hrss, hrounds⟩ := ihb hctx
    refine ⟨_ :: rss, ?_, List.forall_mem_cons.mpr ⟨iha hctx, hrounds⟩⟩
    rw [List.map_append, List.flatten_cons, hrss]
  | noRound | noMore => exact ⟨[], rfl, by simp⟩
  | silent hr _ ih => exact hg.silent _ _ hr (ih hctx)
  | @call ctx r cur stop xs hr _ _ =>
    rw [leave, if_pos (makesNodes_outer hctx (g.manner r))]
    exact hg.call r hr

/-- What stands within a node has the shape of the body of its rule, unless its rule matches without
leaving a trace. -/
theorem Node.IsDerived.leaves (hg : g.Shapes L) {r : R} {start stop : Cursor}
    {children : List (Node R)} (h : (Node.mk r start stop children).IsDerived g)
    (hr : g.manner r ≠ .atomic) : (g.body r).Leaves L (children.map Node.rule) := by
  cases h with
  | @mk ctx _ _ _ _ hnode hbody _ =>
    apply hbody.leaves hg
    cases hmanner : g.manner r with
    | atomic => exact absurd hmanner hr
    | normal | compound | silent =>
      rw [hmanner] at hnode
      exact hnode

/-- A node is another one, or stands anywhere within it. -/
inductive Node.Within (x : Node R) : Node R → Prop where
  | refl : Within x x
  | child {y z} (hz : z ∈ y.children) (h : Within x z) : Within x y

theorem Node.IsDerived.of_within {x y : Node R} (hy : y.IsDerived g) (h : x.Within y) :
    x.IsDerived g := by
  induction h with
  | refl => exact hy
  | child hz _ ih =>
    cases hy with
    | mk _ _ hwithin => exact ih (hwithin _ hz)

end LuaSnippet.Peg
