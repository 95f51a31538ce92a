import LuaSnippet.Globals.Table
import Mathlib.Data.String.Basic

/-!
# Declarations of one name

Every declaration changes what its own name stands for and nothing else, as a table is kept in the
order of its names. So what a name stands for is put together from the declarations of that name
alone, in their order (`find?_declareAll_congr`).
-/

namespace LuaSnippet.Globals

open Script (Declaration)

namespace Table

/-- Whether the names of a table are in order, each of them once. -/
def Sorted (t : Table) : Prop := t.Pairwise fun x y => x.1 < y.1

variable {t : Table} {name x : String}

theorem find?_eq_none_of_lt (h : ∀ y ∈ t, name < y.1) : t.find? name = none := by
  induction t with
  | nil => rfl
  | cons entry rest ih =>
    obtain ⟨n, e⟩ := entry
    obtain ⟨hn, hrest⟩ := List.forall_mem_cons.mp h
    rw [find?, if_neg (ne_of_gt hn)]
    exact ih hrest

theorem find?_alter_of_ne (t : Table) (f : Option Entry → Entry) (h : x ≠ name) :
    (t.alter name f).find? x = t.find? x := by
  induction t with
  | nil => exact if_neg (Ne.symm h)
  | cons entry rest ih =>
    obtain ⟨n, e⟩ := entry
    rw [alter]
    split
    next hn =>
      subst hn
      rw [find?, find?, if_neg (Ne.symm h), if_neg (Ne.symm h)]
    · split
      · rw [find?, if_neg (Ne.symm h)]
      · rw [find?, find?, ih]

theorem find?_alter_self (ht : t.Sorted) (f : Option Entry → Entry) :
    (t.alter name f).find? name = some (f (t.find? name)) := by
  induction t with
  | nil => exact if_pos rfl
  | cons entry rest ih =>
    obtain ⟨n, e⟩ := entry
    obtain ⟨hfirst, hrest⟩ := List.pairwise_cons.mp ht
    rw [alter]
    split
    next hn => rw [find?, find?, if_pos hn, if_pos hn]
    next hn =>
      split
      next hlt =>
        -- every name behind is greater as well, so the name is new
        have hnone : find? ((n, e) :: rest) name = none := by
          refine find?_eq_none_of_lt (List.forall_mem_cons.mpr ⟨hlt, fun y hy => ?_⟩)
          exact lt_trans hlt (hfirst y hy)
        rw [hnone, find?, if_pos rfl]
      · rw [find?, find?, if_neg hn, if_neg hn]
        exact ih hrest

theorem mem_alter {y : String × Entry} {f : Option Entry → Entry} (h : y ∈ t.alter name f) :
    y.1 = name ∨ ∃ z ∈ t, y.1 = z.1 := by
  induction t with
  | nil => exact .inl (congrArg Prod.fst (List.mem_singleton.mp h))
  | cons entry rest ih =>
    obtain ⟨n, e⟩ := entry
    rw [alter] at h
    split at h
    · rcases List.mem_cons.mp h with rfl | h
      · exact .inr ⟨(n, e), List.mem_cons_self, rfl⟩
      · exact .inr ⟨y, List.mem_cons_of_mem _ h, rfl⟩
    · split at h
      · rcases List.mem_cons.mp h with rfl | h
        · exact .inl rfl
        · exact .inr ⟨y, h, rfl⟩
      · rcases List.mem_cons.mp h with rfl | h
        · exact .inr ⟨(n, e), List.mem_cons_self, rfl⟩
        · rcases ih h with hname | ⟨z, hz, hyz⟩
          · exact .inl hname
          · exact .inr ⟨z, List.mem_cons_of_mem _ hz, hyz⟩

theorem Sorted.alter (ht : t.Sorted) (name : String) (f : Option Entry → Entry) :
    (t.alter name f).Sorted := by
  induction t with
  | nil => exact List.pairwise_singleton _ _
  | cons entry rest ih =>
    obtain ⟨n, e⟩ := entry
    obtain ⟨hfirst, hrest⟩ := List.pairwise_cons.mp ht
    rw [Table.alter]
    split
    · exact List.pairwise_cons.mpr ⟨hfirst, hrest⟩
    next hn =>
      split
      next hlt =>
        refine List.pairwise_cons.mpr ⟨List.forall_mem_cons.mpr ⟨hlt, fun y hy => ?_⟩, ht⟩
        exact lt_trans hlt (hfirst y hy)
      next hlt =>
        refine List.pairwise_cons.mpr ⟨fun y hy => ?_, ih hrest⟩
        rcases mem_alter hy with hname | ⟨z, hz, hyz⟩
        · show n < y.1
          rw [hname]
          exact lt_of_le_of_ne (le_of_not_gt hlt) hn
        · show n < y.1
          rw [hyz]
          exact hfirst z hz

end Table

open Table

/-- What a name stands for after one more declaration of it, given what it stood for. -/
def merged : Declaration → Option Entry → Entry
  | .function s, some (.functions overloads) => .functions (overloads ++ [s])
  | .function s, none => .functions [s]
  | .value _ type, none => .value type
  | .space _ members, some (.space inner) => .space (declareAll members inner)
  | .space _ members, none => .space (declareAll members [])
  | _, some other => other

theorem declare_eq (d : Declaration) (t : Table) : declare d t = t.alter d.name (merged d) := by
  cases d with
  | function s =>
    rw [declare]
    congr 1
    funext old
    rcases old with _ | (_ | _ | _) <;> rfl
  | value name type =>
    rw [declare]
    congr 1
    funext old
    cases old <;> rfl
  | space name members =>
    rw [declare]
    congr 1
    funext old
    rcases old with _ | (_ | _ | _) <;> rfl

variable {t t' : Table} {x : String}

/-- What a name stands for after some declarations depends on what it stood for before and on the
declarations of the name. -/
theorem find?_declareAll_filter (ds : List Declaration) (ht : t.Sorted) (ht' : t'.Sorted)
    (h : t.find? x = t'.find? x) :
    (declareAll ds t).find? x = (declareAll (ds.filter fun d => d.name = x) t').find? x := by
  induction ds generalizing t t' with
  | nil => exact h
  | cons d ds ih =>
    rw [declareAll]
    by_cases hd : d.name = x
    · rw [List.filter_cons_of_pos (by simp [hd]), declareAll, declare_eq, declare_eq]
      apply ih (ht.alter _ _) (ht'.alter _ _)
      rw [← hd, find?_alter_self ht, find?_alter_self ht', hd, h]
    · rw [List.filter_cons_of_neg (by simp [hd]), declare_eq]
      apply ih (ht.alter _ _) ht'
      rw [find?_alter_of_ne t _ (Ne.symm hd), h]

/-- **Declarations of other names change nothing.** -/
theorem find?_declareAll_congr {ds ds' : List Declaration}
    (h : (ds.filter fun d => d.name = x) = ds'.filter fun d => d.name = x) :
    (declareAll ds []).find? x = (declareAll ds' []).find? x := by
  have hnil : Table.Sorted [] := .nil
  rw [find?_declareAll_filter ds hnil hnil rfl, h, ← find?_declareAll_filter ds' hnil hnil rfl]

end LuaSnippet.Globals
