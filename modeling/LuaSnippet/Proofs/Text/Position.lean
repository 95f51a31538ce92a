import Mathlib.Data.List.DropRight
import Mathlib.Data.Prod.Lex
import LuaSnippet.Proofs.Text.Boundary

/-!
# Lines and columns

The position of an offset is that of the text before it, read character by character from the first
place (`walk_append`). Every character leads to a later position, on the same line or at the start of
the next one (`lt_after`), so two boundaries of a text never have the same position, and the one that
comes first in bytes comes first in lines and columns (`positions_ordered`).
-/

namespace LuaSnippet.Text

namespace Position

/-- The line and then the column of a position, by which positions are ordered. -/
def key (p : Position) : ℕ ×ₗ ℕ := toLex (p.line, p.column)

/-- The place behind some characters that stand at `p`. -/
def behind (p : Position) (cs : List Char) : Position := cs.foldl after p

variable (p : Position)

theorem lt_after (c : Char) : p.key < (p.after c).key := by
  rw [key, key, Prod.Lex.toLex_lt_toLex, after]
  split
  · exact .inl (Nat.lt_succ_self _)
  · exact .inr ⟨rfl, Nat.lt_succ_self _⟩

theorem behind_append (cs ds : List Char) : p.behind (cs ++ ds) = (p.behind cs).behind ds :=
  List.foldl_append

theorem le_behind (cs : List Char) : p.key ≤ (p.behind cs).key := by
  induction cs generalizing p with
  | nil => exact le_refl _
  | cons c cs ih => exact (p.lt_after c).le.trans (ih (p.after c))

theorem lt_behind {cs : List Char} (hcs : cs ≠ []) : p.key < (p.behind cs).key := by
  cases cs with
  | nil => exact absurd rfl hcs
  | cons c cs => exact (p.lt_after c).trans_le ((p.after c).le_behind cs)

/-- The characters behind the last line feed of a text. -/
def lastLine (cs : List Char) : List Char := cs.rtakeWhile (· ≠ '\n')

/-- The line behind a text counts its line feeds, and the column the characters behind the last of
them. Induction from the end of the text, where the last character decides about the column. -/
theorem behind_first (cs : List Char) :
    first.behind cs = ⟨cs.count '\n' + 1, (lastLine cs).length + 1⟩ := by
  induction cs using List.reverseRecOn with
  | nil => rfl
  | append_singleton cs c ih =>
    have hstep : first.behind (cs ++ [c]) = (first.behind cs).after c := first.behind_append cs [c]
    rw [hstep, ih, after, lastLine, lastLine, List.rtakeWhile_concat, List.count_append]
    by_cases hc : c = '\n'
    · simp [hc]
    · simp [hc]

theorem walk_append (cs rest : List Char) :
    p.walk (cs ++ rest) (byteLength cs) = some (p.behind cs) := by
  induction cs generalizing p with
  | nil => cases rest <;> rfl
  | cons c cs ih =>
    have hsize := c.utf8Size_pos
    rw [List.cons_append, walk, byteLength, if_neg (by omega), if_pos (by omega),
      Nat.add_sub_cancel_left]
    exact ih (p.after c)

theorem walk_of_le {cs : List Char} {offset : Nat} (h : byteLength cs ≤ offset) :
    p.walk cs offset = some (p.behind cs) := by
  induction cs generalizing p offset with
  | nil => rfl
  | cons c cs ih =>
    have hsize := c.utf8Size_pos
    rw [byteLength] at h
    rw [walk, if_neg (by omega), if_pos (by omega)]
    exact ih (p.after c) (by omega)

end Position

/-! ### Two offsets of a text -/

variable {text : String} {a b : Nat}

theorem IsBoundary.exists_between (ha : IsBoundary text a) (hb : IsBoundary text b) (hab : a < b) :
    ∃ before between, between ≠ [] ∧ a = byteLength before ∧
      b = byteLength (before ++ between) ∧ (before ++ between) <+: text.toList := by
  obtain ⟨before, after, htext, ha⟩ := ha
  obtain ⟨before', after', htext', hb⟩ := hb
  have hprefix : before <+: before' := by
    rcases List.prefix_or_prefix_of_prefix ⟨after, htext.symm⟩ ⟨after', htext'.symm⟩ with h | h
    · exact h
    · obtain ⟨between, rfl⟩ := h
      rw [byteLength_append] at ha
      omega
  obtain ⟨between, rfl⟩ := hprefix
  refine ⟨before, between, ?_, ha, hb, ⟨after', htext'.symm⟩⟩
  rintro rfl
  rw [List.append_nil] at hb
  omega

theorem position?_behind {before : List Char} (h : before <+: text.toList) :
    position? text (byteLength before) = some (Position.first.behind before) := by
  obtain ⟨after, htext⟩ := h
  rw [position?, ← htext]
  exact Position.first.walk_append before after

theorem position?_lt (ha : IsBoundary text a) (hb : IsBoundary text b) (hab : a < b) :
    ∃ p q, position? text a = some p ∧ position? text b = some q ∧ p.key < q.key := by
  obtain ⟨before, between, hne, rfl, rfl, hprefix⟩ := ha.exists_between hb hab
  refine ⟨_, _, position?_behind ((List.prefix_append _ _).trans hprefix),
    position?_behind hprefix, ?_⟩
  rw [Position.behind_append]
  exact Position.lt_behind _ hne

/-- **Positions are unambiguous.** The line of a boundary counts the line feeds before it and its column
the characters behind the last of these; of two boundaries the first has the smaller position, so a
position belongs to one boundary only; and an offset past the end has the position of the end. -/
theorem positions_ordered (text : String) :
    (∀ before after, text.toList = before ++ after →
      position? text (byteLength before) =
        some ⟨before.count '\n' + 1, (Position.lastLine before).length + 1⟩) ∧
    (∀ a b, IsBoundary text a → IsBoundary text b → a < b →
      ∃ p q, position? text a = some p ∧ position? text b = some q ∧ p.key < q.key) ∧
    (∀ a b, IsBoundary text a → IsBoundary text b → position? text a = position? text b → a = b) ∧
    (∀ a, text.utf8ByteSize < a → position? text a = position? text text.utf8ByteSize) := by
  refine ⟨fun before after htext => ?_, fun a b => position?_lt, fun a b ha hb heq => ?_,
    fun a hend => ?_⟩
  · rw [position?_behind ⟨after, htext.symm⟩, Position.behind_first]
  · rcases Nat.lt_trichotomy a b with hab | hab | hab
    · obtain ⟨p, q, hp, hq, hlt⟩ := position?_lt ha hb hab
      rw [hp, hq] at heq
      exact absurd hlt (Option.some.inj heq ▸ lt_irrefl _)
    · exact hab
    · obtain ⟨p, q, hp, hq, hlt⟩ := position?_lt hb ha hab
      rw [hp, hq] at heq
      exact absurd hlt (Option.some.inj heq ▸ lt_irrefl _)
  · have hsize := byteLength_toList text
    rw [position?, position?, Position.walk_of_le _ (by omega), Position.walk_of_le _ (by omega)]

/-- A text in which bytes, characters and lines come apart: a letter of two bytes, a carriage return
and an empty line. -/
def mixedLines : String := "é\r\n\nab"

theorem mixedLines_positions :
    IsBoundary mixedLines 2 ∧ IsBoundary mixedLines 5 ∧
      position? mixedLines 2 = some ⟨1, 2⟩ ∧ position? mixedLines 5 = some ⟨3, 1⟩ ∧
      (∃ p q, position? mixedLines 2 = some p ∧ position? mixedLines 5 = some q ∧ p.key < q.key) ∧
      position? mixedLines 9 = position? mixedLines 7 := by
  have hsecond : IsBoundary mixedLines 2 :=
    ⟨['é'], ['\r', '\n', '\n', 'a', 'b'], by decide, by decide⟩
  have hthird : IsBoundary mixedLines 5 :=
    ⟨['é', '\r', '\n', '\n'], ['a', 'b'], by decide, by decide⟩
  obtain ⟨hplaces, hless, -, hend⟩ := positions_ordered mixedLines
  exact ⟨hsecond, hthird, hplaces ['é'] ['\r', '\n', '\n', 'a', 'b'] (by decide),
    hplaces ['é', '\r', '\n', '\n'] ['a', 'b'] (by decide), hless 2 5 hsecond hthird (by decide),
    hend 9 (by decide)⟩

end LuaSnippet.Text
