import LuaSnippet.Proofs.Globals.Declared
import LuaSnippet.Proofs.Globals.Merged

/-!
# The law of a table of globals

A table is made by one declaration after the other, each of which changes an entry in place. What comes
of it can be read off all declarations of a name at once: the first one decides what kind of entry it
is, and the later ones of the same kind add to it (`Binds`). Exactly one table keeps this law, and
neighbours that declare different names may change places (`bind_by_name`).
-/

namespace LuaSnippet.Globals

open Script (Declaration Signature File)
open Table

/-- The signature that a declaration adds to a function. -/
def signatureOf : Declaration → Option Signature
  | .function s => some s
  | _ => none

/-- The members that a declaration adds to a namespace. -/
def membersOf : Declaration → List Declaration
  | .space _ members => members
  | _ => []

mutual

/-- What a name stands for, given all declarations of it in their order. -/
inductive Stands : List Declaration → Option Entry → Prop where
  | undeclared : Stands [] none
  | functions (s : Signature) (ds : List Declaration) :
    Stands (.function s :: ds) (some (.functions (s :: ds.filterMap signatureOf)))
  | value (name type : String) (ds : List Declaration) :
    Stands (.value name type :: ds) (some (.value type))
  | space (name : String) (members ds : List Declaration) {inner : Table}
    (h : Binds (members ++ ds.flatMap membersOf) inner) :
    Stands (.space name members :: ds) (some (.space inner))

/-- A table in the order of its names, in which every name stands for what its declarations say. -/
inductive Binds : List Declaration → Table → Prop where
  | mk {ds : List Declaration} {t : Table} (hsorted : t.Sorted)
    (h : ∀ x, Stands (ds.filter fun d => d.name = x) (t.find? x)) : Binds ds t

end

/-! ### Tables in order -/

namespace Table

variable {t t' : Table} {name : String}

theorem Sorted.find?_eq_none {n : String} {e : Entry} (ht : Sorted ((n, e) :: t)) (h : name < n) :
    find? ((n, e) :: t) name = none :=
  find?_eq_none_of_lt (List.forall_mem_cons.mpr
    ⟨h, fun y hy => lt_trans h ((List.pairwise_cons.mp ht).1 y hy)⟩)

theorem Sorted.ext (ht : t.Sorted) (ht' : t'.Sorted) (h : ∀ x, t.find? x = t'.find? x) :
    t = t' := by
  induction t generalizing t' with
  | nil =>
    cases t' with
    | nil => rfl
    | cons entry rest => simpa [find?] using h entry.1
  | cons entry rest ih =>
    obtain ⟨n, e⟩ := entry
    cases t' with
    | nil => simpa [find?] using h n
    | cons entry' rest' =>
      obtain ⟨n', e'⟩ := entry'
      -- the least name of either table stands in the other one as well
      have hn : n = n' := by
        rcases lt_trichotomy n n' with hlt | heq | hlt
        · have hn := h n
          rw [ht'.find?_eq_none hlt, find?, if_pos rfl] at hn
          cases hn
        · exact heq
        · have hn' := h n'
          rw [ht.find?_eq_none hlt, find?, if_pos rfl] at hn'
          cases hn'
      subst hn
      obtain rfl : e = e' := by simpa [find?] using h n
      obtain ⟨hfirst, hrest⟩ := List.pairwise_cons.mp ht
      obtain ⟨hfirst', hrest'⟩ := List.pairwise_cons.mp ht'
      rw [ih hrest hrest' fun x => ?_]
      by_cases hx : n = x
      · subst hx
        rw [find?_eq_none_of_lt hfirst, find?_eq_none_of_lt hfirst']
      · simpa [find?, hx] using h x

theorem Sorted.alter_congr (ht : t.Sorted) {f g : Option Entry → Entry}
    (h : f (t.find? name) = g (t.find? name)) : t.alter name f = t.alter name g := by
  refine (ht.alter name f).ext (ht.alter name g) fun x => ?_
  by_cases hx : x = name
  · subst hx
    rw [find?_alter_self ht, find?_alter_self ht, h]
  · rw [find?_alter_of_ne t f hx, find?_alter_of_ne t g hx]

theorem Sorted.alter_comm (ht : t.Sorted) {name' : String} (hne : name ≠ name')
    (f g : Option Entry → Entry) :
    (t.alter name f).alter name' g = (t.alter name' g).alter name f := by
  refine ((ht.alter name f).alter name' g).ext ((ht.alter name' g).alter name f) fun x => ?_
  by_cases hx : x = name
  · subst hx
    rw [find?_alter_of_ne _ g hne, find?_alter_self ht, find?_alter_self (ht.alter name' g),
      find?_alter_of_ne t g hne]
  · rw [find?_alter_of_ne _ f hx]
    by_cases hx' : x = name'
    · subst hx'
      rw [find?_alter_self (ht.alter name f), find?_alter_self ht, find?_alter_of_ne t f hx]
    · rw [find?_alter_of_ne _ g hx', find?_alter_of_ne t f hx, find?_alter_of_ne t g hx']

end Table

variable {t t' : Table} {d : Declaration} {ds ds' : List Declaration} {x : String}

theorem Table.Sorted.declare (ht : t.Sorted) (d : Declaration) : (declare d t).Sorted := by
  rw [declare_eq]
  exact ht.alter d.name (merged d)

theorem Table.Sorted.declareAll (ht : t.Sorted) (ds : List Declaration) :
    (declareAll ds t).Sorted := by
  induction ds generalizing t with
  | nil => exact ht
  | cons d ds ih => exact ih (ht.declare d)

theorem declareAll_append (xs ys : List Declaration) (t : Table) :
    declareAll (xs ++ ys) t = declareAll ys (declareAll xs t) := by
  induction xs generalizing t with
  | nil => rfl
  | cons d xs ih => exact ih (declare d t)

/-! ### The entry of a name -/

theorem find?_declareAll (ht : t.Sorted) (ds : List Declaration) (x : String) :
    (declareAll ds t).find? x =
      (ds.filter fun d => d.name = x).foldl (fun old d => some (merged d old)) (t.find? x) := by
  induction ds generalizing t with
  | nil => rfl
  | cons d ds ih =>
    rw [declareAll, ih (ht.declare d), declare_eq]
    by_cases hd : d.name = x
    · rw [List.filter_cons_of_pos (by simp [hd]), List.foldl_cons, ← hd, find?_alter_self ht]
    · rw [List.filter_cons_of_neg (by simp [hd]), find?_alter_of_ne t _ (Ne.symm hd)]

theorem foldl_merged_functions (ds : List Declaration) (overloads : List Signature) :
    ds.foldl (fun old d => some (merged d old)) (some (.functions overloads)) =
      some (.functions (overloads ++ ds.filterMap signatureOf)) := by
  induction ds generalizing overloads with
  | nil => rw [List.filterMap_nil, List.append_nil, List.foldl_nil]
  | cons d ds ih =>
    rw [List.foldl_cons]
    cases d with
    | function s =>
      have hs : signatureOf (.function s) = some s := rfl
      rw [List.filterMap_cons_some hs, ← List.singleton_append, ← List.append_assoc]
      exact ih (overloads ++ [s])
    | value | space =>
      rw [List.filterMap_cons_none rfl]
      exact ih overloads

theorem foldl_merged_value (ds : List Declaration) (type : String) :
    ds.foldl (fun old d => some (merged d old)) (some (.value type)) = some (.value type) := by
  induction ds with
  | nil => rfl
  | cons d ds ih =>
    cases d <;> exact ih

theorem foldl_merged_space (ds : List Declaration) (inner : Table) :
    ds.foldl (fun old d => some (merged d old)) (some (.space inner)) =
      some (.space (declareAll (ds.flatMap membersOf) inner)) := by
  induction ds generalizing inner with
  | nil => rfl
  | cons d ds ih =>
    rw [List.foldl_cons, List.flatMap_cons, declareAll_append]
    cases d with
    | function | value => exact ih inner
    | space name members => exact ih (declareAll members inner)

/-! ### One table keeps the law -/

mutual

/-- How many declarations a declaration consists of, with those within. -/
def weight : Declaration → Nat
  | .function _ | .value _ _ => 1
  | .space _ members => weightAll members + 1

/-- How many declarations some declarations consist of. -/
def weightAll : List Declaration → Nat
  | [] => 0
  | d :: ds => weight d + weightAll ds

end

theorem weightAll_append (xs ys : List Declaration) :
    weightAll (xs ++ ys) = weightAll xs + weightAll ys := by
  induction xs with
  | nil => rw [List.nil_append, weightAll, Nat.zero_add]
  | cons d xs ih => rw [List.cons_append, weightAll, weightAll, ih, Nat.add_assoc]

theorem weightAll_filter_le (p : Declaration → Bool) (ds : List Declaration) :
    weightAll (ds.filter p) ≤ weightAll ds := by
  induction ds with
  | nil => exact Nat.le_refl _
  | cons d ds ih =>
    rw [List.filter_cons]
    split
    · exact Nat.add_le_add_left ih _
    · exact Nat.le_trans ih (Nat.le_add_left _ _)

theorem weightAll_membersOf_le (ds : List Declaration) :
    weightAll (ds.flatMap membersOf) ≤ weightAll ds := by
  induction ds with
  | nil => exact Nat.le_refl _
  | cons d ds ih =>
    rw [List.flatMap_cons, weightAll_append, weightAll]
    refine Nat.add_le_add ?_ ih
    cases d with
    | function | value => exact Nat.zero_le _
    | space name members => exact Nat.le_succ _

/-- The law for one name, if tables keep the law for all fewer declarations. -/
theorem stands_iff {e : Option Entry}
    (hfewer : ∀ ds', weightAll ds' < weightAll ds → ∀ t, Binds ds' t ↔ t = declareAll ds' []) :
    Stands ds e ↔ e = ds.foldl (fun old d => some (merged d old)) none := by
  cases ds with
  | nil =>
    constructor
    · rintro ⟨⟩
      rfl
    · rintro rfl
      exact .undeclared
  | cons d ds =>
    rw [List.foldl_cons]
    cases d with
    | function s =>
      have hfold := foldl_merged_functions ds [s]
      rw [show merged (.function s) none = .functions [s] from rfl, hfold]
      constructor
      · rintro ⟨⟩
        rfl
      · rintro rfl
        exact .functions s ds
    | value name type =>
      rw [show merged (.value name type) none = .value type from rfl, foldl_merged_value]
      constructor
      · rintro ⟨⟩
        rfl
      · rintro rfl
        exact .value name type ds
    | space name members =>
      have hmerged : merged (.space name members) none = .space (declareAll members []) := rfl
      have hlt : weightAll (members ++ ds.flatMap membersOf) <
          weightAll (.space name members :: ds) := by
        have hle := weightAll_membersOf_le ds
        rw [weightAll_append, weightAll, weight]
        omega
      rw [hmerged, foldl_merged_space, ← declareAll_append]
      constructor
      · intro h
        cases h with
        | space _ _ _ h => rw [(hfewer _ hlt _).mp h]
      · rintro rfl
        exact .space name members ds ((hfewer _ hlt _).mpr rfl)

/-- **Exactly one table keeps the law.** -/
theorem binds_iff (ds : List Declaration) (t : Table) : Binds ds t ↔ t = declareAll ds [] := by
  induction hn : weightAll ds using Nat.strong_induction_on generalizing ds t with
  | _ n ih =>
    have hempty : Table.Sorted [] := .nil
    have hstands (x : String) (e : Option Entry) :
        Stands (ds.filter fun d => d.name = x) e ↔ e = (declareAll ds []).find? x := by
      rw [find?_declareAll hempty]
      refine stands_iff fun ds' hlt t => ih _ ?_ ds' t rfl
      exact hn ▸ Nat.lt_of_lt_of_le hlt (weightAll_filter_le _ ds)
    constructor
    · intro h
      cases h with
      | mk hsorted h => exact hsorted.ext (hempty.declareAll ds) fun x => (hstands x _).mp (h x)
    · rintro rfl
      exact .mk (hempty.declareAll ds) fun x => (hstands x _).mpr rfl

/-! ### Declarations that change places -/

/-- A table in order, with the tables of its namespaces. -/
inductive Table.Ordered : Table → Prop where
  | mk {t : Table} (hsorted : t.Sorted)
    (hspaces : ∀ x inner, t.find? x = some (.space inner) → Ordered inner) : Ordered t

theorem Table.Ordered.sorted (ht : t.Ordered) : t.Sorted := by
  cases ht with
  | mk hsorted _ => exact hsorted

theorem Table.Ordered.inner {inner : Table} (ht : t.Ordered) (hx : t.find? x = some (.space inner)) :
    Ordered inner := by
  cases ht with
  | mk _ hspaces => exact hspaces x inner hx

theorem Table.ordered_empty : Table.Ordered [] :=
  .mk .nil nofun

mutual

theorem Table.Ordered.merged : ∀ (d : Declaration) {old : Option Entry} {inner : Table},
    (∀ inner, old = some (.space inner) → Ordered inner) → merged d old = .space inner →
      Ordered inner
  | .function _, some (.space _), _, hold, hinner | .value _ _, some (.space _), _, hold, hinner => by
    cases hinner
    exact hold _ rfl
  | .space _ members, none, _, _, hinner => by
    cases hinner
    exact ordered_empty.declareAll members
  | .space _ members, some (.space _), _, hold, hinner => by
    cases hinner
    exact (hold _ rfl).declareAll members

theorem Table.Ordered.declareAll : ∀ {t : Table}, Ordered t → ∀ ds : List Declaration,
    Ordered (declareAll ds t)
  | _, ht, [] => ht
  | t, ht, d :: ds => by
    refine Ordered.declareAll (.mk (ht.sorted.declare d) fun x inner hx => ?_) ds
    rw [declare_eq] at hx
    by_cases hxd : x = d.name
    · subst hxd
      rw [find?_alter_self ht.sorted, Option.some.injEq] at hx
      exact Table.Ordered.merged d (fun _ => ht.inner) hx
    · rw [find?_alter_of_ne t _ hxd] at hx
      exact ht.inner hx

end

/-- Declarations of which two neighbours with different names have changed places, among all of them
or among the members of a namespace, any number of times. -/
inductive Rearranged : List Declaration → List Declaration → Prop where
  | refl (ds : List Declaration) : Rearranged ds ds
  | trans {ds ds' ds'' : List Declaration} (h : Rearranged ds ds') (h' : Rearranged ds' ds'') :
    Rearranged ds ds''
  | swap (a b : Declaration) (ds : List Declaration) (h : a.name ≠ b.name) :
    Rearranged (a :: b :: ds) (b :: a :: ds)
  | cons (d : Declaration) {ds ds' : List Declaration} (h : Rearranged ds ds') :
    Rearranged (d :: ds) (d :: ds')
  | within (name : String) {members members' : List Declaration} (ds : List Declaration)
    (h : Rearranged members members') :
    Rearranged (.space name members :: ds) (.space name members' :: ds)

/-- **Rearranged declarations make the same table.** -/
theorem Rearranged.declareAll_eq (h : Rearranged ds ds') (ht : t.Ordered) :
    declareAll ds t = declareAll ds' t := by
  induction h generalizing t with
  | refl => rfl
  | trans _ _ ih ih' => exact (ih ht).trans (ih' ht)
  | swap a b ds hne =>
    rw [declareAll, declareAll, declareAll, declareAll]
    simp only [declare_eq]
    rw [ht.sorted.alter_comm hne]
  | cons d _ ih => exact ih (ht.declareAll [d])
  | @within name members members' ds _ ih =>
    rw [declareAll, declareAll, declare_eq, declare_eq]
    congr 1
    refine ht.sorted.alter_congr ?_
    show merged (.space name members) (t.find? name) = merged (.space name members') (t.find? name)
    rcases hold : t.find? name with _ | (_ | _ | inner)
    · exact congrArg Entry.space (ih Table.ordered_empty)
    · rfl
    · rfl
    · exact congrArg Entry.space (ih (ht.inner hold))

/-- **A table is determined name by name.** Files have their ambient declarations in load and source
order, and their table is the one that keeps the law for these. Files whose ambient declarations stand
in another order have the same table, as long as only neighbours with different names have changed
places, within or across files. -/
theorem bind_by_name (files : List File) :
    (∃ ds, AreDeclared files ds) ∧ ∀ ds, AreDeclared files ds →
      (∀ t, Binds ds t ↔ t = bind files) ∧
        ∀ (files' : List File) (ds' : List Declaration), AreDeclared files' ds' →
          Rearranged ds ds' → bind files' = bind files := by
  refine ⟨⟨_, areDeclared_collected files⟩, fun ds hds => ?_⟩
  obtain rfl := areDeclared_iff.mp hds
  refine ⟨binds_iff _, fun files' ds' hds' h => ?_⟩
  obtain rfl := areDeclared_iff.mp hds'
  exact (h.declareAll_eq Table.ordered_empty).symm

/-- A file of ambient declarations, behind an empty statement. -/
def declaring (name : String) (ds : List Declaration) : File :=
  ⟨name, "", .es5, .empty ⟨0, 0⟩ :: ds.map (.declare · ⟨0, 0⟩), [], []⟩

/-- Two files declare a function with two overloads, a namespace in two parts, and a variable twice. In
two others neighbours have changed places: within the namespace, in the first file, and across the end
of it. -/
theorem mergedFiles_by_name :
    let takes (name type : String) : Signature := ⟨name, [⟨"key", false, false, some type⟩], none⟩
    let ds : List Declaration :=
      [.space "io" [.function (takes "open" "string"), .value "mode" "string"],
        .value "level" "number", .function (takes "read" "string"),
        .function (takes "read" "number"), .space "io" [.function (takes "open" "number")],
        .value "level" "string"]
    let ds' : List Declaration :=
      [.space "io" [.value "mode" "string", .function (takes "open" "string")],
        .function (takes "read" "string"), .function (takes "read" "number"),
        .value "level" "number", .space "io" [.function (takes "open" "number")],
        .value "level" "string"]
    let files := [declaring "a.d.ts" (ds.take 3), declaring "b.d.ts" (ds.drop 3)]
    let files' := [declaring "a.d.ts" (ds'.take 3), declaring "b.d.ts" (ds'.drop 3)]
    let table : Table :=
      [("io", .space [("mode", .value "string"),
          ("open", .functions [takes "open" "string", takes "open" "number"])]),
        ("level", .value "number"),
        ("read", .functions [takes "read" "string", takes "read" "number"])]
    AreDeclared files ds ∧ Binds ds table ∧ bind files = table ∧
      AreDeclared files' ds' ∧ Rearranged ds ds' ∧ bind files' = table := by
  intro takes ds ds' files files' table
  have hds : AreDeclared files ds := areDeclared_iff.mpr rfl
  have hds' : AreDeclared files' ds' := areDeclared_iff.mpr rfl
  have htable : bind files = table := by cbv
  have hrearranged : Rearranged ds ds' := by
    refine .trans (.within "io" _ (.swap _ _ [] (by decide))) (.cons _ ?_)
    exact .trans (.swap _ _ _ (by decide)) (.cons _ (.swap _ _ _ (by decide)))
  obtain ⟨hbinds, hsame⟩ := (bind_by_name files).2 ds hds
  exact ⟨hds, (hbinds table).mpr htable.symm, htable, hds', hrearranged,
    (hsame files' ds' hds' hrearranged).trans htable⟩

end LuaSnippet.Globals
