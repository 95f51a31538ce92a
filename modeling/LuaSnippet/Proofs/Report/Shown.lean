import LuaSnippet.Report.Basic
import LuaSnippet.Proofs.Report.Rebuilt

/-!
# What a report shows of a mismatch

A report cuts every block of a comparison into lines again before it shows them, and a reader's view of
lines is not the one that the blocks were put together in: a blank line at the end of a block is not
shown, and a carriage return at the end of its other lines is lost. So a comparison that rebuilds both
texts is shown in full only if no block is cut short (`mismatchText_eq`), as it is where no line of the
two texts is blank or ends in a carriage return. A single blank line that one text lacks is not shown at
all (`blank_line_unseen`).
-/

namespace LuaSnippet.Report

open Text (IsLine seen withoutReturn)

namespace Side

def sign : Side → String
  | both => "   "
  | first => "  -"
  | second => "  +"

/-- A text in the colour of a side, if colours are wanted. -/
def paint (colours : Bool) : Side → String → String
  | both => id
  | first => Colour.red.paint colours false
  | second => Colour.green.paint colours false

end Side

namespace Block

/-- The lines of a block as a report shows them. -/
def shown (x : Block) : List String := seen x.lines

/-- The text for a block: its lines behind their sign, in their colour. -/
def text (colours : Bool) (x : Block) : String :=
  x.side.paint colours (Text.unlines (x.shown.map (x.side.sign ++ ·)))

end Block

theorem signed_eq (sign text : String) :
    signed sign text = Text.unlines ((Text.lines text).map (sign ++ ·)) := by
  rw [← Text.join_map_line, List.map_map]
  rfl

theorem changeText_change (colours : Bool) {x : Block} (hx : x.lines ≠ [])
    (hlines : ∀ l ∈ x.lines, IsLine l) : changeText colours x.change = x.text colours := by
  obtain ⟨side, lines⟩ := x
  have hsigned : signed side.sign (Text.join "\n" lines) =
      Text.unlines ((seen lines).map (side.sign ++ ·)) := by
    rw [signed_eq, Text.lines_join hx hlines]
  cases side with
  | both => exact hsigned
  | first => exact congrArg (Side.first.paint colours) hsigned
  | second => exact congrArg (Side.second.paint colours) hsigned

theorem isLine_of_mem_items {s l : String} (hl : l ∈ Change.items s) : IsLine l := by
  unfold Change.items at hl
  split at hl
  · cases hl
  · exact Text.isLine_of_mem_splitLines hl

/-- **A comparison that rebuilds two texts is written block by block.** -/
theorem map_changeText_of_rebuild (colours : Bool) {blocks : List Block} {expected actual : String}
    (h : Block.Rebuild blocks (Change.items expected) (Change.items actual)) :
    (blocks.map Block.change).map (changeText colours) = blocks.map (Block.text colours) := by
  rw [List.map_map]
  refine List.map_congr_left fun x hx => changeText_change colours (h.nonempty x hx) fun l hl => ?_
  rcases h.mem_or_mem hx hl with hl | hl
  · exact isLine_of_mem_items hl
  · exact isLine_of_mem_items hl

theorem join_items (s : String) : Text.join "\n" (Change.items s) = s := by
  unfold Change.items
  split
  · rename_i hs
    exact hs.symm
  · exact Text.join_splitLines s

theorem exists_of_ne {blocks : List Block} {expected actual : String} (hne : expected ≠ actual)
    (h : Block.Rebuild blocks (Change.items expected) (Change.items actual)) :
    ∃ x ∈ blocks, x.side ≠ .both := by
  by_contra hnone
  push Not at hnone
  have heq := congrArg (Text.join "\n") (h.eq_of_forall_both hnone)
  rw [join_items, join_items] at heq
  exact hne heq

/-- Whether a line is shown as it is, wherever it stands in a block. -/
def IsPlain (l : String) : Prop := l ≠ "" ∧ withoutReturn l = l

namespace Block.Rebuild

variable {blocks : List Block} {a b : List String}

theorem shown_eq_lines (h : Rebuild blocks a b) (hplain : ∀ l, l ∈ a ∨ l ∈ b → IsPlain l) :
    ∀ x ∈ blocks, x.shown = x.lines := by
  intro x hx
  have hlines : ∀ l ∈ x.lines, IsPlain l := fun l hl => hplain l (h.mem_or_mem hx hl)
  refine Text.seen_eq_self_iff.mpr ⟨fun hlast => ?_, fun l hl => ?_⟩
  · exact (hlines "" (List.mem_of_getLast? hlast)).1 rfl
  · exact (hlines l ((List.dropLast_sublist _).subset hl)).2

theorem flatMap_shown (h : Rebuild blocks a b) (hshown : ∀ x ∈ blocks, x.shown = x.lines) :
    (blocks.filter (·.side.inFirst)).flatMap Block.shown = a ∧
      (blocks.filter (·.side.inSecond)).flatMap Block.shown = b := by
  have hlines (p : Block → Bool) :
      (blocks.filter p).flatMap Block.shown = (blocks.filter p).flatMap Block.lines :=
    List.flatMap_congr fun x hx => hshown x (List.mem_filter.mp hx).1
  exact ⟨(hlines _).trans h.first, (hlines _).trans h.second⟩

end Block.Rebuild

/-- **What a report shows of a mismatch.** The report consists of blocks, each with its sign. The lines
of the blocks are the lines of the two texts, and if these differ, there is a block that only one of them
has. A block is shown in full unless it ends with a blank line or another line of it ends in a carriage
return, and it is not shown at all if it is a single blank line. Where all lines are plain, the report
shows the lines of both texts, and a difference of the texts. -/
theorem mismatchText_eq (colours : Bool) (expected actual : String) :
    ∃ blocks : List Block,
      Change.between expected actual = blocks.map Block.change ∧
      mismatchText colours expected actual = Text.join "" (blocks.map (Block.text colours)) ∧
      Block.Rebuild blocks (Change.items expected) (Change.items actual) ∧
      (expected ≠ actual → ∃ x ∈ blocks, x.side ≠ .both) ∧
      (∀ x ∈ blocks, (x.shown = x.lines ↔
          x.lines.getLast? ≠ some "" ∧ ∀ l ∈ x.lines.dropLast, withoutReturn l = l) ∧
        (x.shown = [] ↔ x.lines = [""])) ∧
      ((∀ l, l ∈ Change.items expected ∨ l ∈ Change.items actual → IsPlain l) →
        (blocks.filter (·.side.inFirst)).flatMap Block.shown = Change.items expected ∧
        (blocks.filter (·.side.inSecond)).flatMap Block.shown = Change.items actual ∧
        (expected ≠ actual → ∃ x ∈ blocks, x.side ≠ .both ∧ x.shown ≠ [])) := by
  obtain ⟨blocks, hbetween, hrebuild⟩ := Change.exists_blocks_between expected actual
  have htext : mismatchText colours expected actual =
      Text.join "" (blocks.map (Block.text colours)) := by
    rw [mismatchText, hbetween, map_changeText_of_rebuild colours hrebuild]
  refine ⟨blocks, hbetween, htext, hrebuild, fun hne => exists_of_ne hne hrebuild,
    fun x hx => ⟨Text.seen_eq_self_iff, Text.seen_eq_nil_iff (hrebuild.nonempty x hx)⟩,
    fun hplain => ?_⟩
  have hshown := hrebuild.shown_eq_lines hplain
  obtain ⟨hfirst, hsecond⟩ := hrebuild.flatMap_shown hshown
  refine ⟨hfirst, hsecond, fun hne => ?_⟩
  obtain ⟨x, hx, hside⟩ := exists_of_ne hne hrebuild
  exact ⟨x, hx, hside, hshown x hx ▸ hrebuild.nonempty x hx⟩

/-- Of two texts that differ in a blank line, a report shows what they have in common, and no line of it
tells them apart. -/
theorem blank_line_unseen :
    "a\n\nb" ≠ "a\nb" ∧ Text.trim "a\n\nb" = "a\n\nb" ∧ Text.trim "a\nb" = "a\nb" ∧
      mismatchText false "a\n\nb" "a\nb" = "   a\n   b\n" ∧
      ∀ l ∈ Text.lines (mismatchText false "a\n\nb" "a\nb"),
        ¬ "  -".toList <+: l.toList ∧ ¬ "  +".toList <+: l.toList := by
  decide +kernel

end LuaSnippet.Report
