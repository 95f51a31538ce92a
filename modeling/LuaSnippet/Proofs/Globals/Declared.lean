import LuaSnippet.Globals.Table
import Mathlib.Data.List.Forall2
import Mathlib.Data.List.Sort
import Mathlib.Data.Prod.Lex

/-!
# Declared names

What some files declare is a matter of places: the numbers of a file and of a statement in it. Read in
the order of their places, the ambient declarations are what is collected for a table
(`areDeclared_iff`). The global names are the names of these declarations and no others
(`isSome_find?_bind`): a declaration that is merged with an earlier one, or that an earlier one stands
against, leaves the name where it is.
-/

namespace LuaSnippet.Globals

open Script (Declaration File Stmt)

/-! ### Load and source order -/

/-- Whether an ambient declaration is the statement at a place: the number of a file, and of a
statement of this file, both counted from zero. -/
def IsDeclaredAt (files : List File) (place : Nat × Nat) (d : Declaration) : Prop :=
  ∃ f span, files[place.1]? = some f ∧ f.statements[place.2]? = some (.declare d span)

/-- Whether some declarations are the ambient declarations of some files in load and source order: with
the places at which something is declared in their order, they stand there one by one. -/
def AreDeclared (files : List File) (ds : List Declaration) : Prop :=
  ∃ places : List (Nat × Nat), places.Pairwise (Prod.Lex (· < ·) (· < ·)) ∧
    (∀ place, place ∈ places ↔ ∃ d, IsDeclaredAt files place d) ∧
    List.Forall₂ (IsDeclaredAt files) places ds

theorem IsDeclaredAt.eq {files : List File} {place : Nat × Nat} {d d' : Declaration}
    (h : IsDeclaredAt files place d) (h' : IsDeclaredAt files place d') : d = d' := by
  obtain ⟨f, span, hf, hd⟩ := h
  obtain ⟨f', span', hf', hd'⟩ := h'
  cases hf.symm.trans hf'
  cases hd.symm.trans hd'
  rfl

theorem AreDeclared.unique {files : List File} {ds ds' : List Declaration}
    (h : AreDeclared files ds) (h' : AreDeclared files ds') : ds = ds' := by
  obtain ⟨places, hsorted, hmem, hds⟩ := h
  obtain ⟨places', hsorted', hmem', hds'⟩ := h'
  have hplaces : places = places' :=
    hsorted.eq_of_mem_iff hsorted' fun place => (hmem place).trans (hmem' place).symm
  subst hplaces
  exact List.right_unique_forall₂' (fun _ _ _ hd hd' => hd.eq hd') hds hds'

theorem exists_numbers (ss : List Stmt) :
    ∃ numbers : List Nat, numbers.Pairwise (· < ·) ∧
      (∀ j, j ∈ numbers ↔ ∃ d span, ss[j]? = some (.declare d span)) ∧
      List.Forall₂ (fun j d => ∃ span, ss[j]? = some (.declare d span)) numbers
        (ss.filterMap declarationOf) := by
  induction ss with
  | nil => exact ⟨[], .nil, by simp, .nil⟩
  | cons s ss ih =>
    obtain ⟨numbers, hsorted, hmem, hds⟩ := ih
    -- behind the first statement everything is one further on
    have hsorted' : (numbers.map (· + 1)).Pairwise (· < ·) :=
      List.pairwise_map.mpr (hsorted.imp Nat.succ_lt_succ)
    have hds' : List.Forall₂ (fun j d => ∃ span, (s :: ss)[j]? = some (.declare d span))
        (numbers.map (· + 1)) (ss.filterMap declarationOf) :=
      List.forall₂_map_left_iff.mpr hds
    by_cases hs : ∃ d span, s = .declare d span
    · obtain ⟨d, span, rfl⟩ := hs
      refine ⟨0 :: numbers.map (· + 1), hsorted'.cons (by simp), fun j => ?_, .cons ⟨span, rfl⟩ hds'⟩
      cases j with
      | zero => simp
      | succ j => simpa using hmem j
    · have hnone : declarationOf s = none := by
        cases s with
        | declare d span => exact absurd ⟨d, span, rfl⟩ hs
        | _ => rfl
      rw [List.filterMap_cons_none hnone]
      refine ⟨numbers.map (· + 1), hsorted', fun j => ?_, hds'⟩
      cases j with
      | zero => simpa using hs
      | succ j => simpa using hmem j

/-- The declarations that are bound are the ambient declarations. -/
theorem areDeclared_collected (files : List File) :
    AreDeclared files (files.flatMap declarationsOf) := by
  induction files with
  | nil => exact ⟨[], .nil, by simp [IsDeclaredAt], .nil⟩
  | cons f files ih =>
    obtain ⟨places, hsorted, hmem, hds⟩ := ih
    obtain ⟨numbers, hnumbers, hmemf, hdsf⟩ := exists_numbers f.statements
    refine ⟨numbers.map ((0, ·)) ++ places.map fun place => (place.1 + 1, place.2),
      List.pairwise_append.mpr ⟨?_, ?_, ?_⟩, fun place => ?_, List.rel_append ?_ ?_⟩
    · exact List.pairwise_map.mpr (hnumbers.imp (.right 0))
    · refine List.pairwise_map.mpr (hsorted.imp fun h => ?_)
      cases h with
      | left _ _ h => exact .left _ _ (Nat.succ_lt_succ h)
      | right _ h => exact .right _ h
    · intro p hp q hq
      obtain ⟨j, -, rfl⟩ := List.mem_map.mp hp
      obtain ⟨place, -, rfl⟩ := List.mem_map.mp hq
      exact .left _ _ (Nat.succ_pos _)
    · obtain ⟨i, j⟩ := place
      cases i with
      | zero => simpa [IsDeclaredAt] using hmemf j
      | succ i => simpa [IsDeclaredAt] using hmem (i, j)
    · refine List.forall₂_map_left_iff.mpr (hdsf.imp fun j d h => ?_)
      obtain ⟨span, h⟩ := h
      exact ⟨f, span, rfl, h⟩
    · exact List.forall₂_map_left_iff.mpr hds

theorem areDeclared_iff {files : List File} {ds : List Declaration} :
    AreDeclared files ds ↔ ds = files.flatMap declarationsOf := by
  have hall := areDeclared_collected files
  constructor
  · exact fun h => h.unique hall
  · rintro rfl
    exact hall

/-! ### Names -/

variable {name x : String}

theorem isSome_find?_alter (t : Table) (name : String) (f : Option Entry → Entry) (x : String) :
    ((t.alter name f).find? x).isSome = true ↔ x = name ∨ (t.find? x).isSome = true := by
  induction t with
  | nil =>
    by_cases hx : name = x
    · simp [Table.alter, Table.find?, hx]
    · simp [Table.alter, Table.find?, hx, Ne.symm hx]
  | cons entry rest ih =>
    obtain ⟨n, e⟩ := entry
    rw [Table.alter]
    split
    next hn =>
      subst hn
      by_cases hx : n = x
      · simp [Table.find?, hx]
      · simp [Table.find?, hx, Ne.symm hx]
    · split
      · by_cases hx : name = x
        · simp [Table.find?, hx]
        · simp [Table.find?, hx, Ne.symm hx]
      · by_cases hx : n = x
        · simp [Table.find?, hx]
        · simpa [Table.find?, hx] using ih

theorem isSome_find?_declare (d : Declaration) (t : Table) (x : String) :
    ((declare d t).find? x).isSome = true ↔ x = d.name ∨ (t.find? x).isSome = true := by
  cases d <;> exact isSome_find?_alter t _ _ x

theorem isSome_find?_declareAll (ds : List Declaration) (t : Table) (x : String) :
    ((declareAll ds t).find? x).isSome = true ↔
      (∃ d ∈ ds, d.name = x) ∨ (t.find? x).isSome = true := by
  induction ds generalizing t with
  | nil => simp [declareAll]
  | cons d ds ih =>
    rw [declareAll, ih, isSome_find?_declare, ← or_assoc]
    refine or_congr_left ?_
    simp [or_comm, eq_comm]

/-- **The global names of some files are those that they declare.** -/
theorem isSome_find?_bind (files : List File) (x : String) :
    ((bind files).find? x).isSome = true ↔
      ∃ f ∈ files, ∃ d ∈ declarationsOf f, d.name = x := by
  have hnil : Table.find? [] x = none := rfl
  rw [bind, isSome_find?_declareAll, hnil]
  simp only [List.mem_flatMap, Option.isSome_none, Bool.false_eq_true, or_false]
  constructor
  · rintro ⟨d, ⟨f, hf, hd⟩, hname⟩
    exact ⟨f, hf, d, hd, hname⟩
  · rintro ⟨f, hf, d, hd, hname⟩
    exact ⟨d, ⟨f, hf, hd⟩, hname⟩

end LuaSnippet.Globals
