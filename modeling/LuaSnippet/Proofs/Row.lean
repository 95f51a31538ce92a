/-!
# One behind the other

Things that stand one behind the other between two places: each from one place to another, and the
next one not before that. What the things are, and what it means for one to stand from one place to
another, is left open: nodes of a match, spans and parts of a tree all stand in rows.
-/

namespace LuaSnippet

variable {α β : Type}

/-- Things one behind the other between two places, where `P a b x` says that `x` stands from `a` to
`b`. -/
inductive InRow (P : Nat → Nat → α → Prop) : Nat → List α → Nat → Prop where
  | nil {lo hi} (h : lo ≤ hi) : InRow P lo [] hi
  | cons {lo a b hi x xs} (hlo : lo ≤ a) (hab : a ≤ b) (hx : P a b x) (hrest : InRow P b xs hi) :
    InRow P lo (x :: xs) hi

namespace InRow

variable {P : Nat → Nat → α → Prop} {Q : Nat → Nat → β → Prop} {lo mid hi : Nat} {xs ys : List α}

theorem single {x : α} (h : lo ≤ hi) (hx : P lo hi x) : InRow P lo [x] hi :=
  .cons (Nat.le_refl lo) h hx (.nil (Nat.le_refl hi))

theorem le (h : InRow P lo xs hi) : lo ≤ hi := by
  induction h with
  | nil h => exact h
  | cons hlo hab _ _ ih => omega

theorem from_before {lo' : Nat} (hlo : lo' ≤ lo) (h : InRow P lo xs hi) : InRow P lo' xs hi := by
  cases h with
  | nil h => exact .nil (Nat.le_trans hlo h)
  | cons h hab hx hrest => exact .cons (Nat.le_trans hlo h) hab hx hrest

theorem append (hxs : InRow P lo xs mid) (hys : InRow P mid ys hi) :
    InRow P lo (xs ++ ys) hi := by
  induction hxs with
  | nil h => exact hys.from_before h
  | cons hlo hab hx _ ih => exact .cons hlo hab hx (ih hys)

theorem up_to {hi' : Nat} (hhi : hi ≤ hi') (h : InRow P lo xs hi) : InRow P lo xs hi' := by
  rw [← List.append_nil xs]
  exact h.append (.nil hhi)

theorem sublist (hsub : ys.Sublist xs) (h : InRow P lo xs hi) : InRow P lo ys hi := by
  induction hsub generalizing lo with
  | slnil => exact h
  | cons x _ ih =>
    cases h with
    | cons hlo hab _ hrest => exact ih (hrest.from_before (Nat.le_trans hlo hab))
  | cons_cons x _ ih =>
    cases h with
    | cons hlo hab hx hrest => exact .cons hlo hab hx (ih hrest)

theorem exists_of_mem {x : α} (h : InRow P lo xs hi) (hx : x ∈ xs) :
    ∃ a b, lo ≤ a ∧ b ≤ hi ∧ P a b x := by
  induction h with
  | nil => exact absurd hx List.not_mem_nil
  | @cons lo a b hi y ys hlo hab hy hrest ih =>
    rcases List.mem_cons.mp hx with rfl | hx
    · exact ⟨a, b, hlo, hrest.le, hy⟩
    · obtain ⟨a', b', ha, hb, hx⟩ := ih hx
      exact ⟨a', b', by omega, hb, hx⟩

theorem filterMap {f : α → Option β}
    (hf : ∀ a b x y, f x = some y → P a b x → Q a b y) (h : InRow P lo xs hi) :
    InRow Q lo (xs.filterMap f) hi := by
  induction h with
  | nil h => exact .nil h
  | @cons lo a b hi x xs hlo hab hx _ ih =>
    cases hfx : f x with
    | none =>
      rw [List.filterMap_cons_none hfx]
      exact ih.from_before (Nat.le_trans hlo hab)
    | some y =>
      rw [List.filterMap_cons_some hfx]
      exact .cons hlo hab (hf a b x y hfx hx) ih

theorem findSome? {f : α → Option β} (hf : ∀ a b x y, f x = some y → P a b x → Q a b y)
    (h : InRow P lo xs hi) {y : β} (hy : xs.findSome? f = some y) :
    ∃ a b, lo ≤ a ∧ b ≤ hi ∧ Q a b y := by
  obtain ⟨x, hx, hxy⟩ := List.exists_of_findSome?_eq_some hy
  obtain ⟨a, b, ha, hb, hlies⟩ := h.exists_of_mem hx
  exact ⟨a, b, ha, hb, hf a b x y hxy hlies⟩

theorem map {f : α → β} (hf : ∀ a b x, P a b x → Q a b (f x))
    (h : InRow P lo xs hi) : InRow Q lo (xs.map f) hi := by
  induction h with
  | nil h => exact .nil h
  | cons hlo hab hx _ ih => exact .cons hlo hab (hf _ _ _ hx) ih

end InRow

end LuaSnippet
