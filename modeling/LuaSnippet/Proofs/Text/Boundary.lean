import LuaSnippet.Text.Position

/-!
# Boundaries of characters

A byte offset is a place of a text where some of its characters end and the others begin. An offset
within the text has a line and a column just if it is such a boundary, and every offset past the end
has those of the end (`position?_isSome_iff`).
-/

namespace LuaSnippet.Text

/-- The number of bytes that some characters take. -/
def byteLength : List Char → Nat
  | [] => 0
  | c :: cs => c.utf8Size + byteLength cs

theorem byteLength_append (cs ds : List Char) :
    byteLength (cs ++ ds) = byteLength cs + byteLength ds := by
  induction cs with
  | nil => rw [List.nil_append, byteLength, Nat.zero_add]
  | cons c cs ih => rw [List.cons_append, byteLength, ih, byteLength, Nat.add_assoc]

theorem byteLength_toList (s : String) : byteLength s.toList = s.utf8ByteSize := by
  have hchars : ∀ cs : List Char, byteLength cs = (String.ofList cs).utf8ByteSize := by
    intro cs
    induction cs with
    | nil => rfl
    | cons c cs ih =>
      have hcons : String.ofList (c :: cs) = String.singleton c ++ String.ofList cs := by
        apply String.toList_injective
        simp
      rw [byteLength, ih, hcons, String.utf8ByteSize_append, String.utf8ByteSize_singleton]
  rw [hchars, String.ofList_toList]

/-- Whether a byte offset lies within a text or at one of its ends, and not inside a character. -/
def IsBoundary (text : String) (offset : Nat) : Prop :=
  ∃ before after, text.toList = before ++ after ∧ offset = byteLength before

theorem IsBoundary.zero (text : String) : IsBoundary text 0 :=
  ⟨[], text.toList, rfl, rfl⟩

theorem walk_isSome_iff (p : Position) (cs : List Char) (offset : Nat) :
    (p.walk cs offset).isSome = true ↔
      (∃ before after, cs = before ++ after ∧ offset = byteLength before) ∨
        byteLength cs < offset := by
  induction cs generalizing p offset with
  | nil =>
    simp only [Position.walk, Option.isSome_some, true_iff, byteLength]
    rcases Nat.eq_zero_or_pos offset with rfl | hpos
    · exact .inl ⟨[], [], rfl, rfl⟩
    · exact .inr hpos
  | cons c cs ih =>
    rw [Position.walk, byteLength]
    have hsize := c.utf8Size_pos
    by_cases hzero : offset = 0
    · rw [if_pos hzero]
      exact iff_of_true rfl (.inl ⟨[], c :: cs, rfl, hzero⟩)
    rw [if_neg hzero]
    by_cases hle : c.utf8Size ≤ offset
    · rw [if_pos hle, ih]
      constructor
      · rintro (⟨before, after, rfl, hoffset⟩ | hlt)
        · refine .inl ⟨c :: before, after, rfl, ?_⟩
          rw [byteLength]
          omega
        · exact .inr (by omega)
      · rintro (⟨before, after, hcs, hoffset⟩ | hlt)
        · cases before with
          | nil => exact absurd hoffset hzero
          | cons d before =>
            obtain ⟨rfl, rfl⟩ := List.cons.inj hcs
            rw [byteLength] at hoffset
            exact .inl ⟨before, after, rfl, by omega⟩
        · exact .inr (by omega)
    · rw [if_neg hle]
      refine iff_of_false (by simp) ?_
      rintro (⟨before, after, hcs, hoffset⟩ | hlt)
      · cases before with
        | nil => exact absurd hoffset hzero
        | cons d before =>
          obtain ⟨rfl, rfl⟩ := List.cons.inj hcs
          rw [byteLength] at hoffset
          omega
      · omega

/-- **An offset has a position just if it is no offset inside a character.** -/
theorem position?_isSome_iff (text : String) (offset : Nat) :
    (position? text offset).isSome = true ↔
      IsBoundary text offset ∨ text.utf8ByteSize < offset := by
  rw [position?, walk_isSome_iff, byteLength_toList]
  rfl

end LuaSnippet.Text
