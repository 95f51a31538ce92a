import LuaSnippet.Report.Difference
import LuaSnippet.Proofs.Text.Lines

/-!
# Comparisons rebuild both texts

The lines that the walk over the table collects stand in both texts in this order, whatever the table
holds (`common_sublist`). Cutting two lists of lines along such lines loses none: the blocks that both
texts have and those of the first are the first text, those that both have and those of the second are
the second one (`exists_blocks_between`).
-/

namespace LuaSnippet.Report

/-! ### Blocks -/

/-- Which of two texts has some lines. -/
inductive Side where
  | both
  | first
  | second
deriving DecidableEq, Repr

namespace Side

/-- The part of a comparison for a text on a side. -/
def change : Side → String → Change
  | both => .same
  | first => .removed
  | second => .added

/-- Whether the first text has the lines. -/
def inFirst (s : Side) : Bool := s ≠ second

/-- Whether the second text has the lines. -/
def inSecond (s : Side) : Bool := s ≠ first

end Side

/-- Lines that stand one after the other in one of two texts or in both. -/
structure Block where
  side : Side
  lines : List String
deriving DecidableEq, Repr

namespace Block

/-- The part of a comparison that a block is. -/
def change (x : Block) : Change := x.side.change (Text.join "\n" x.lines)

def ofLines (s : Side) (lines : List String) : List Block :=
  if lines = [] then [] else [⟨s, lines⟩]

/-- Whether blocks are not empty and give two lists of lines back. -/
structure Rebuild (blocks : List Block) (a b : List String) : Prop where
  nonempty : ∀ x ∈ blocks, x.lines ≠ []
  first : (blocks.filter (·.side.inFirst)).flatMap (·.lines) = a
  second : (blocks.filter (·.side.inSecond)).flatMap (·.lines) = b

namespace Rebuild

variable {xs ys : List Block} {a b a' b' : List String}

theorem nil : Rebuild [] [] [] := ⟨nofun, rfl, rfl⟩

theorem append (h : Rebuild xs a b) (h' : Rebuild ys a' b') :
    Rebuild (xs ++ ys) (a ++ a') (b ++ b') where
  nonempty := List.forall_mem_append.mpr ⟨h.nonempty, h'.nonempty⟩
  first := by rw [List.filter_append, List.flatMap_append, h.first, h'.first]
  second := by rw [List.filter_append, List.flatMap_append, h.second, h'.second]

theorem ofLines (s : Side) (lines : List String) : Rebuild (ofLines s lines)
    (if s.inFirst then lines else []) (if s.inSecond then lines else []) := by
  unfold Block.ofLines
  by_cases hlines : lines = []
  · subst hlines
    simpa using nil
  · rw [if_neg hlines]
    refine ⟨List.forall_mem_singleton.mpr hlines, ?_, ?_⟩
    · cases hside : s.inFirst <;> simp [hside]
    · cases hside : s.inSecond <;> simp [hside]

theorem mem_or_mem (h : Rebuild xs a b) {x : Block} (hx : x ∈ xs) {l : String} (hl : l ∈ x.lines) :
    l ∈ a ∨ l ∈ b := by
  have hmem {p : Block → Bool} (hp : p x = true) : l ∈ (xs.filter p).flatMap (·.lines) :=
    List.mem_flatMap.mpr ⟨x, List.mem_filter.mpr ⟨hx, hp⟩, hl⟩
  rw [← h.first, ← h.second]
  by_cases hside : x.side = .second
  · exact .inr (hmem (by rw [hside]; rfl))
  · exact .inl (hmem (decide_eq_true hside))

theorem eq_of_forall_both (h : Rebuild xs a b) (hboth : ∀ x ∈ xs, x.side = .both) : a = b := by
  have hall {p : Block → Bool} (hp : ∀ x, x.side = .both → p x = true) : xs.filter p = xs :=
    List.filter_eq_self.mpr fun x hx => hp x (hboth x hx)
  rw [← h.first, ← h.second, hall fun x hx => by rw [hx]; rfl, hall fun x hx => by rw [hx]; rfl]

end Rebuild

end Block

namespace Change

open Text (IsLine)

/-! ### Common lines -/

/-- The lines that a walk puts in front stand in both lists, in this order. -/
theorem exists_walk (a b : Array String) (t : Array Nat) {i j : Nat} (hi : i ≤ a.size)
    (hj : j ≤ b.size) (found : List String) :
    ∃ before, walk a b t i j found = before ++ found ∧ before.Sublist (a.toList.take i) ∧
      before.Sublist (b.toList.take j) := by
  have hstep {xs : List String} (n : Nat) : (xs.take n).Sublist (xs.take (n + 1)) :=
    (List.take_prefix_take_left (Nat.le_succ n)).sublist
  fun_induction walk a b t i j found with
  | case1 | case2 => exact ⟨[], rfl, List.nil_sublist _, List.nil_sublist _⟩
  | case3 i j found x hx ih =>
    obtain ⟨before, heq, ha, hb⟩ := ih (by omega) (by omega)
    have htake {c : Array String} {n : Nat} (hn : n < c.size) (hc : c.getD n "" = x)
        (h : before.Sublist (c.toList.take n)) :
        (before ++ [x]).Sublist (c.toList.take (n + 1)) := by
      have hlast : c.toList[n] = x := by simpa [Array.getD, hn] using hc
      rw [← List.take_append_getElem hn, hlast]
      exact h.append (List.Sublist.refl _)
    exact ⟨before ++ [x], by rw [heq, List.append_assoc]; rfl, htake hi rfl ha, htake hj hx.symm hb⟩
  | case4 => exact ⟨[], rfl, List.nil_sublist _, List.nil_sublist _⟩
  | case5 found i j x hx hfirst hup ih =>
    obtain ⟨before, heq, ha, hb⟩ := ih hi (by omega)
    exact ⟨before, heq, ha, hb.trans (hstep j)⟩
  | case6 found i j x hx hfirst hleft ih =>
    obtain ⟨before, heq, ha, hb⟩ := ih (by omega) hj
    exact ⟨before, heq, ha.trans (hstep i), hb⟩

/-- **The common lines stand in both lists.** -/
theorem common_sublist (a b : List String) :
    (common a b).Sublist a ∧ (common a b).Sublist b := by
  obtain ⟨before, heq, ha, hb⟩ :=
    exists_walk a.toArray b.toArray (table a b) (i := a.length) (j := b.length) (Nat.le_refl _) (Nat.le_refl _)
      []
  rw [common, heq, List.append_nil]
  simpa using And.intro ha hb

theorem items_join_sublist {ls : List String} {s : String} (h : ls.Sublist (Text.splitLines s)) :
    (items (Text.join "\n" ls)).Sublist (items s) := by
  unfold items
  split
  · exact List.nil_sublist _
  · rename_i hjoin
    have hls : ls ≠ [] := fun hnil => hjoin (by rw [hnil]; rfl)
    rw [Text.splitLines_join hls fun l hl => Text.isLine_of_mem_splitLines (h.subset hl)]
    split
    · rename_i hs
      -- of the empty text only the blank line is left, which is no text
      rw [hs] at h
      rcases List.sublist_singleton.mp h with rfl | rfl
      · exact absurd rfl hls
      · exact absurd rfl hjoin
    · exact h

/-! ### Cutting along common lines -/

theorem part_eq (s : Side) (lines : List String) :
    part s.change lines = (Block.ofLines s lines).map Block.change := by
  cases lines <;> rfl

theorem sameCount_le (a b c : List String) : sameCount a b c ≤ a.length := by
  fun_induction sameCount a b c with
  | case1 _ _ _ _ _ _ _ ih => exact Nat.succ_le_succ ih
  | case2 | case3 => exact Nat.zero_le _

theorem take_sameCount (a b c : List String) :
    a.take (sameCount a b c) = b.take (sameCount a b c) ∧
      a.take (sameCount a b c) = c.take (sameCount a b c) := by
  fun_induction sameCount a b c with
  | case1 x xs y ys z zs heq ih =>
    obtain ⟨rfl, rfl⟩ := heq
    obtain ⟨hb, hc⟩ := ih
    exact ⟨congrArg (x :: ·) hb, congrArg (x :: ·) hc⟩
  | case2 | case3 => exact ⟨rfl, rfl⟩

theorem countBefore_cons_self (z : String) (zs lines : List String) :
    countBefore (z :: zs) (z :: lines) = 0 := by
  simp [countBefore]

theorem countBefore_cons_of_ne {x z : String} (hx : x ≠ z) (zs lines : List String) :
    countBefore (z :: zs) (x :: lines) = countBefore (z :: zs) lines + 1 := by
  simp [countBefore, hx]

theorem countBefore_le (c lines : List String) : countBefore c lines ≤ lines.length := by
  cases c with
  | nil => exact Nat.le_refl _
  | cons z zs => exact (List.takeWhile_prefix _).length_le

theorem drop_sublist {a c : List String} {n : Nat} (h : c.Sublist a) (htake : a.take n = c.take n) :
    (c.drop n).Sublist (a.drop n) := by
  rw [← List.take_append_drop n a, ← List.take_append_drop n c, htake] at h
  exact (List.append_sublist_append_left _).mp h

theorem sublist_drop_countBefore {c lines : List String} (h : c.Sublist lines) :
    c.Sublist (lines.drop (countBefore c lines)) := by
  cases c with
  | nil => exact List.nil_sublist _
  | cons z zs =>
    induction lines with
    | nil => exact h
    | cons x lines ih =>
      by_cases hx : x = z
      · subst hx
        rwa [countBefore_cons_self]
      · rw [countBefore_cons_of_ne hx, List.drop_succ_cons]
        cases h with
        | cons _ h => exact ih h
        | cons_cons => exact absurd rfl hx

/-- Either a common line comes first in both lists, or something comes before the next one. -/
theorem counts_pos {a b c : List String} (ha : c.Sublist a) (hb : c.Sublist b)
    (hne : ¬ (a = [] ∧ b = [])) :
    0 < sameCount a b c ∨ 0 < countBefore c a ∨ 0 < countBefore c b := by
  cases c with
  | nil =>
    rw [Decidable.not_and_iff_or_not] at hne
    exact .inr (hne.imp List.length_pos_iff.mpr List.length_pos_iff.mpr)
  | cons z zs =>
    cases a with
    | nil => cases ha
    | cons x xs =>
      cases b with
      | nil => cases hb
      | cons y ys =>
        by_cases hx : x = z
        · by_cases hy : y = z
          · subst hx hy
            simp [sameCount]
          · exact .inr (.inr (countBefore_cons_of_ne hy zs ys ▸ Nat.succ_pos _))
        · exact .inr (.inl (countBefore_cons_of_ne hx zs xs ▸ Nat.succ_pos _))

/-- A round of cutting takes at least one line off, if any are left. -/
theorem length_round_lt {a b c : List String} (ha : c.Sublist a) (hb : c.Sublist b)
    (hne : ¬ (a = [] ∧ b = [])) {n : Nat} (hn : n = sameCount a b c) :
    ((a.drop n).drop (countBefore (c.drop n) (a.drop n))).length +
        ((b.drop n).drop (countBefore (c.drop n) (b.drop n))).length < a.length + b.length := by
  have hpos := counts_pos ha hb hne
  have hle := sameCount_le a b c
  have hr := countBefore_le c a
  have hs := countBefore_le c b
  rw [← hn] at hpos hle
  cases n with
  | zero =>
    simp only [List.drop_zero, List.length_drop]
    omega
  | succ n =>
    simp only [List.length_drop]
    omega

/-- **Cutting along common lines loses none of the lines.** -/
theorem exists_blocks_of_cut {fuel : Nat} {a b c : List String} (ha : c.Sublist a) (hb : c.Sublist b)
    (hfuel : a.length + b.length < fuel) :
    ∃ blocks : List Block, cut fuel a b c = blocks.map Block.change ∧ Block.Rebuild blocks a b := by
  induction fuel generalizing a b c with
  | zero => exact absurd hfuel (Nat.not_lt_zero _)
  | succ fuel ih =>
    by_cases hne : a = [] ∧ b = []
    · rw [cut, if_pos hne]
      obtain ⟨rfl, rfl⟩ := hne
      exact ⟨[], rfl, .nil⟩
    · rw [cut, if_neg hne]
      obtain ⟨hab, hac⟩ := take_sameCount a b c
      have hround := length_round_lt ha hb hne rfl
      dsimp only
      generalize sameCount a b c = n at hround hab hac ⊢
      have ha' := sublist_drop_countBefore (drop_sublist ha hac)
      have hb' := sublist_drop_countBefore (drop_sublist hb (hab ▸ hac))
      generalize countBefore (c.drop n) (a.drop n) = r at hround ha' ⊢
      generalize countBefore (c.drop n) (b.drop n) = s at hround hb' ⊢
      obtain ⟨blocks, hcut, hrebuild⟩ := ih ha' hb' (by omega)
      refine ⟨Block.ofLines .both (a.take n) ++ Block.ofLines .first ((a.drop n).take r) ++
        Block.ofLines .second ((b.drop n).take s) ++ blocks, ?_, ?_⟩
      · rw [hcut, List.map_append, List.map_append, List.map_append, ← part_eq, ← part_eq, ← part_eq]
        rfl
      · have hfirst : a.take n ++ (a.drop n).take r ++ [] ++ (a.drop n).drop r = a := by
          rw [List.append_nil, List.append_assoc, List.take_append_drop, List.take_append_drop]
        have hsecond : a.take n ++ [] ++ (b.drop n).take s ++ (b.drop n).drop s = b := by
          rw [hab, List.append_nil, List.append_assoc, List.take_append_drop, List.take_append_drop]
        have hall : Block.Rebuild _ (a.take n ++ (a.drop n).take r ++ [] ++ (a.drop n).drop r)
            (a.take n ++ [] ++ (b.drop n).take s ++ (b.drop n).drop s) :=
          (((Block.Rebuild.ofLines .both (a.take n)).append
            (.ofLines .first ((a.drop n).take r))).append
            (.ofLines .second ((b.drop n).take s))).append hrebuild
        rwa [hfirst, hsecond] at hall

/-- **The comparison of two texts rebuilds both of them.** -/
theorem exists_blocks_between (expected actual : String) :
    ∃ blocks : List Block, between expected actual = blocks.map Block.change ∧
      Block.Rebuild blocks (items expected) (items actual) := by
  obtain ⟨hexpected, hactual⟩ := common_sublist (Text.splitLines expected) (Text.splitLines actual)
  exact exists_blocks_of_cut (items_join_sublist hexpected) (items_join_sublist hactual)
    (Nat.lt_succ_self _)

end Change

end LuaSnippet.Report
