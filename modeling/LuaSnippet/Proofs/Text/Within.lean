import LuaSnippet.Text.Blank
import LuaSnippet.Text.Within

/-!
# Where a text contains another

The search for a text within another finds it exactly where its characters stand in a row
(`contains_iff`). In a text that is put together from lines, what is found lies within one of the lines
or across the end of some (`infix_intercalate_iff`).
-/

namespace LuaSnippet.Text

theorem isWithin_iff {part whole : List Char} : isWithin part whole = true ↔ part <:+: whole := by
  induction whole with
  | nil => rw [isWithin, List.isEmpty_iff, List.infix_nil]
  | cons c whole ih =>
    rw [isWithin, Bool.or_eq_true, List.isPrefixOf_iff_prefix, ih, List.infix_cons_iff]

/-- **A text contains another if the characters of the other stand in it in a row.** -/
theorem contains_iff {whole part : String} :
    contains whole part = true ↔ part.toList <:+: whole.toList :=
  isWithin_iff

theorem join_cons_cons (sep s s' : String) (ss : List String) :
    join sep (s :: s' :: ss) = s ++ sep ++ join sep (s' :: ss) := rfl

theorem toList_join (sep : String) (ss : List String) :
    (join sep ss).toList = sep.toList.intercalate (ss.map String.toList) := by
  induction ss with
  | nil => rfl
  | cons s ss ih =>
    cases ss with
    | nil => simp [join]
    | cons s' ss =>
      rw [join_cons_cons, String.toList_append, String.toList_append, ih]
      exact List.intercalate_cons_cons.symm

/-! ### Across the ends of lines -/

/-- Whether some characters end one of some lines and go on in the lines behind it. -/
inductive IsAcross : List (List Char) → List Char → Prop where
  | here {line lines part u v} (hlines : lines ≠ []) (hpart : part = u ++ '\n' :: v)
    (hu : u <:+ line) (hv : v <+: ['\n'].intercalate lines) : IsAcross (line :: lines) part
  | later {line lines part} (h : IsAcross lines part) : IsAcross (line :: lines) part

theorem IsAcross.mem {lines : List (List Char)} {part : List Char} (h : IsAcross lines part) :
    '\n' ∈ part := by
  induction h with
  | @here _ _ _ u _ _ hpart =>
    rw [hpart]
    exact List.mem_append_right u List.mem_cons_self
  | later _ ih => exact ih

/-- **What stands in joined lines stands in one of them or across the end of one.** -/
theorem infix_intercalate_iff {lines : List (List Char)} {part : List Char} (hlines : lines ≠ []) :
    part <:+: ['\n'].intercalate lines ↔ (∃ l ∈ lines, part <:+: l) ∨ IsAcross lines part := by
  induction lines with
  | nil => exact absurd rfl hlines
  | cons line lines ih =>
    cases lines with
    | nil =>
      have hnone : ¬ IsAcross [line] part := by
        rintro (⟨hne, -⟩ | ⟨⟨⟩⟩)
        exact hne rfl
      simp [hnone]
    | cons line' lines =>
      have hne : line' :: lines ≠ [] := List.cons_ne_nil _ _
      rw [List.intercalate_cons_cons, List.append_assoc, List.singleton_append,
        List.infix_append_iff, List.infix_cons_iff, ih hne]
      constructor
      · rintro (hline | (hopens | ⟨l, hl, hpart⟩ | hacross) | ⟨u, w, hpart, hu, hw⟩)
        · exact .inl ⟨line, .head _, hline⟩
        · rcases List.prefix_cons_iff.mp hopens with hnil | ⟨v, hpart, hv⟩
          · exact .inl ⟨line, .head _, hnil ▸ List.nil_infix⟩
          · exact .inr (.here hne hpart List.nil_suffix hv)
        · exact .inl ⟨l, .tail _ hl, hpart⟩
        · exact .inr (.later hacross)
        · rcases List.prefix_cons_iff.mp hw with rfl | ⟨v, rfl, hv⟩
          · rw [List.append_nil] at hpart
            exact .inl ⟨line, .head _, hpart ▸ hu.isInfix⟩
          · exact .inr (.here hne hpart hu hv)
      · rintro (⟨l, hl, hpart⟩ | hacross)
        · rcases List.mem_cons.mp hl with rfl | hl
          · exact .inl hpart
          · exact .inr (.inl (.inr (.inl ⟨l, hl, hpart⟩)))
        · cases hacross with
          | @here _ _ _ u v _ hpart hu hv =>
            exact .inr (.inr ⟨u, '\n' :: v, hpart, hu, List.cons_prefix_cons.mpr ⟨rfl, hv⟩⟩)
          | later hacross => exact .inr (.inl (.inr (.inr hacross)))

end LuaSnippet.Text
