import Mathlib.Data.List.Basic
import LuaSnippet.Text.Lines
import LuaSnippet.Proofs.Text.Within

/-!
# Lines that are joined and cut

Cutting a text at its line feeds and joining the parts again gives the text back, and so does joining
lines and cutting the text (`join_splitLines`, `splitLines_join`). A reader who takes a final line feed
for the end of a line, and not for the start of another one, sees less: of lines that are joined, the
last one is lost if it is blank, and all others lose a carriage return at their end (`lines_join`).
-/

namespace LuaSnippet.Text

/-! ### Parts between line feeds -/

theorem pieces_ne_nil (cs : List Char) : pieces cs ≠ [] := by
  cases cs with
  | nil => exact List.cons_ne_nil _ _
  | cons c cs =>
    rw [pieces]
    split
    · exact List.cons_ne_nil _ _
    · split <;> exact List.cons_ne_nil _ _

theorem pieces_eq_splitOn (cs : List Char) : pieces cs = cs.splitOn '\n' := by
  induction cs with
  | nil => rfl
  | cons c cs ih =>
    rw [pieces, List.splitOn_cons_eq_if_modifyHead, ← ih]
    by_cases hc : c = '\n'
    · rw [if_pos hc, if_pos (by simp [hc])]
    · rw [if_neg hc, if_neg (by simp [hc])]
      cases hpieces : pieces cs with
      | nil => exact absurd hpieces (pieces_ne_nil cs)
      | cons p ps => rfl

theorem notMem_of_mem_pieces {cs p : List Char} (hp : p ∈ pieces cs) : '\n' ∉ p := by
  induction cs generalizing p with
  | nil =>
    obtain rfl := List.mem_singleton.mp hp
    exact List.not_mem_nil
  | cons c cs ih =>
    rw [pieces] at hp
    split at hp
    · rcases List.mem_cons.mp hp with rfl | hp
      · exact List.not_mem_nil
      · exact ih hp
    · rename_i hc
      split at hp
      · obtain rfl := List.mem_singleton.mp hp
        exact fun h => hc (List.mem_singleton.mp h).symm
      · rename_i q qs hpieces
        rcases List.mem_cons.mp hp with rfl | hp
        · have hq : q ∈ pieces cs := hpieces ▸ List.mem_cons_self
          exact fun h => (List.mem_cons.mp h).elim (fun h => hc h.symm) (ih hq)
        · exact ih (hpieces ▸ List.mem_cons_of_mem _ hp)

/-! ### Lines of a text -/

def IsLine (l : String) : Prop := '\n' ∉ l.toList

theorem isLine_of_mem_splitLines {s l : String} (hl : l ∈ splitLines s) : IsLine l := by
  obtain ⟨p, hp, rfl⟩ := List.mem_map.mp hl
  rw [IsLine, String.toList_ofList]
  exact notMem_of_mem_pieces hp

theorem map_toList_splitLines (s : String) : (splitLines s).map String.toList = pieces s.toList := by
  rw [splitLines, List.map_map]
  exact List.map_id'' (fun _ => String.toList_ofList) _

/-- **Joining the lines of a text gives the text.** -/
theorem join_splitLines (s : String) : join "\n" (splitLines s) = s := by
  apply String.toList_injective
  rw [toList_join, map_toList_splitLines, pieces_eq_splitOn]
  exact List.intercalate_splitOn '\n'

theorem pieces_join {ls : List String} (hls : ls ≠ []) (hlines : ∀ l ∈ ls, IsLine l) :
    pieces (join "\n" ls).toList = ls.map String.toList := by
  rw [pieces_eq_splitOn, toList_join]
  refine List.splitOn_intercalate '\n' (fun p hp => ?_) (by simpa using hls)
  obtain ⟨l, hl, rfl⟩ := List.mem_map.mp hp
  exact hlines l hl

/-- **Cutting joined lines gives these lines.** -/
theorem splitLines_join {ls : List String} (hls : ls ≠ []) (hlines : ∀ l ∈ ls, IsLine l) :
    splitLines (join "\n" ls) = ls := by
  rw [splitLines, pieces_join hls hlines, List.map_map]
  exact List.map_id'' (fun _ => String.ofList_toList) _

theorem join_empty_cons (s : String) (ss : List String) : join "" (s :: ss) = s ++ join "" ss := by
  cases ss with
  | nil => exact String.append_empty.symm
  | cons s' ss => rw [join_cons_cons, String.append_empty]

theorem join_map_line (ls : List String) : join "" (ls.map (· ++ "\n")) = unlines ls := by
  induction ls with
  | nil => rfl
  | cons l ls ih => rw [List.map_cons, join_empty_cons, ih, unlines]

/-! ### Lines for a reader -/

/-- A line without one carriage return at its end. -/
def withoutReturn (l : String) : String := String.ofList (dropReturn l.toList)

/-- What a reader sees of joined lines: all but the last one lose a carriage return at their end, and
the last one is not seen if it is blank. -/
def seen (ls : List String) : List String :=
  ls.dropLast.map withoutReturn ++ ls.getLast?.toList.filter (· ≠ "")

theorem seen_cons {l : String} {ls : List String} (hls : ls ≠ []) :
    seen (l :: ls) = withoutReturn l :: seen ls := by
  cases ls with
  | nil => exact absurd rfl hls
  | cons l' ls => rfl

theorem seen_eq_nil_iff {ls : List String} (hls : ls ≠ []) : seen ls = [] ↔ ls = [""] := by
  cases ls with
  | nil => exact absurd rfl hls
  | cons l ls =>
    cases ls with
    | nil => simp [seen]
    | cons l' ls => simp [seen_cons]

/-- Joined lines are seen as they are unless the last one is blank or another one ends in a carriage
return. -/
theorem seen_eq_self_iff {ls : List String} :
    seen ls = ls ↔ ls.getLast? ≠ some "" ∧ ∀ l ∈ ls.dropLast, withoutReturn l = l := by
  induction ls with
  | nil => simp [seen]
  | cons l ls ih =>
    cases ls with
    | nil => simp [seen]
    | cons l' ls =>
      rw [seen_cons (List.cons_ne_nil _ _), List.cons.injEq, ih, List.getLast?_cons_cons,
        List.dropLast_cons_cons, List.forall_mem_cons, and_left_comm]

theorem linesOfPieces_map (ls : List String) :
    (linesOfPieces (ls.map String.toList)).map String.ofList = seen ls := by
  induction ls with
  | nil => rfl
  | cons l ls ih =>
    cases ls with
    | nil =>
      by_cases hl : l = ""
      · rw [hl]
        rfl
      · have hchars : l.toList ≠ [] := fun h => hl (String.toList_eq_nil_iff.mp h)
        simp [linesOfPieces, seen, hchars, hl]
    | cons l' ls =>
      rw [seen_cons (List.cons_ne_nil _ _), ← ih]
      rfl

/-- **What a reader sees of joined lines.** -/
theorem lines_join {ls : List String} (hls : ls ≠ []) (hlines : ∀ l ∈ ls, IsLine l) :
    lines (join "\n" ls) = seen ls := by
  rw [lines, pieces_join hls hlines, linesOfPieces_map]

end LuaSnippet.Text
