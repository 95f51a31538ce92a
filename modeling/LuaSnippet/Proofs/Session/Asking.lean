import Mathlib.Data.List.Induction
import LuaSnippet.Session.Step
import LuaSnippet.Proofs.Program.Simulation

/-!
# What a run asks for

A run changes a session only through its store, and the store only by the names that it asks its
host for, one after the other. A name that is kept, and that of the snippet, changes nothing when it
is asked for; every other name is read, and kept if there is something to read.
-/

namespace LuaSnippet.Session

open Script (Edition)
open Program (Unreadable)

/-! ### Kept texts -/

namespace Texts

theorem get?_nil (name : String) : get? [] name = none := rfl

theorem get?_append (t u : Texts) (name : String) :
    get? (t ++ u) name = (t.get? name).or (get? u name) := by
  unfold get?
  rw [List.find?_append]
  cases t.find? fun e => e.1 = name <;> rfl

theorem get?_cons (e : String × String) (t : Texts) (name : String) :
    get? (e :: t) name = if e.1 = name then some e.2 else get? t name := by
  unfold get?
  by_cases he : e.1 = name
  · rw [if_pos he, List.find?_cons_of_pos (by simpa using he)]
    rfl
  · rw [if_neg he, List.find?_cons_of_neg (by simpa using he)]

theorem get?_eq_none_iff (t : Texts) (name : String) :
    t.get? name = none ↔ name ∉ t.map (·.1) := by
  induction t with
  | nil => simp [get?_nil]
  | cons e t ih =>
    rw [get?_cons, List.map_cons, List.mem_cons]
    by_cases he : e.1 = name
    · simp [he]
    · rw [if_neg he, ih]
      simp [Ne.symm he]

theorem mem_of_get?_eq_some {t : Texts} {name text : String} (ht : t.get? name = some text) :
    (name, text) ∈ t := by
  induction t with
  | nil => simp [get?_nil] at ht
  | cons e t ih =>
    rw [get?_cons] at ht
    by_cases he : e.1 = name
    · rw [if_pos he, Option.some.injEq] at ht
      rw [← he, ← ht]
      exact List.mem_cons_self
    · rw [if_neg he] at ht
      exact List.mem_cons_of_mem _ (ih ht)

end Texts

/-! ### Asking for one name -/

def Read.kept (r : Read) : Option (String × String) :=
  r.found.map fun text => (r.file, text)

def readOf (library : String) (disk : Disk) (name : String) : Read :=
  ⟨name, pathOf library name, disk.read? (pathOf library name)⟩

namespace Store

def ask (library : String) (disk : Disk) (s : Store) (name : String) : Store :=
  if name = snippetName then s else (s.load disk name (pathOf library name)).2

variable {library : String} {disk : Disk} {s : Store} {name : String}

theorem ask_snippetName : s.ask library disk snippetName = s := by
  rw [ask, if_pos rfl]

theorem ask_of_kept {text : String} (hkept : s.texts.get? name = some text) :
    s.ask library disk name = s := by
  unfold ask load
  rw [hkept]
  split <;> rfl

theorem ask_of_not_kept (hname : name ≠ snippetName) (hkept : s.texts.get? name = none) :
    s.ask library disk name =
      ⟨s.texts ++ (readOf library disk name).kept.toList, s.reads ++ [readOf library disk name]⟩ := by
  unfold ask load fetch readOf Read.kept
  rw [if_neg hname, hkept]
  cases disk.read? (pathOf library name) <;> simp

end Store

theorem supply_snd (library : String) (disk : Disk) (snippet name : String) (edition : Edition)
    (s : Store) : (supply library disk snippet name edition s).2 = s.ask library disk name := by
  unfold supply Store.ask
  by_cases hname : name = snippetName
  · rw [if_pos hname, if_pos hname]
  · rw [if_neg hname, if_neg hname]
    rcases s.load disk name (pathOf library name) with ⟨_ | _, s'⟩ <;> rfl

/-! ### Asking for several names -/

/-- What asking for some names adds to a store: `new` are the reads that were tried for it. -/
structure Reading (library : String) (disk : Disk) (names : List String) (s s' : Store)
    (new : List Read) : Prop where
  reads_eq : s'.reads = s.reads ++ new
  texts_eq : s'.texts = s.texts ++ new.filterMap Read.kept
  /-- A read is of an asked name other than the snippet's that was not kept. -/
  of_mem : ∀ r ∈ new, r = readOf library disk r.file ∧ r.file ∈ names ∧ r.file ≠ snippetName ∧
    s.texts.get? r.file = none
  /-- Every asked name but the snippet's is read if it was not kept. -/
  exists_read : ∀ name ∈ names, name ≠ snippetName → s.texts.get? name = none →
    ∃ r ∈ new, r.file = name
  /-- No name is read twice, unless nothing was found the first time. -/
  nodup : ((new.filterMap Read.kept).map (·.1)).Nodup

namespace Reading

variable {library : String} {disk : Disk} {names : List String} {s s' : Store} {new : List Read}

theorem refl (library : String) (disk : Disk) (s : Store) : Reading library disk [] s s [] where
  reads_eq := by simp
  texts_eq := by simp
  of_mem := by simp
  exists_read := by simp
  nodup := by simp

theorem snoc (hr : Reading library disk names s s' new) (name : String) :
    ∃ new', Reading library disk (names ++ [name]) s (s'.ask library disk name) new' := by
  have widen : ∀ r ∈ new, r = readOf library disk r.file ∧ r.file ∈ names ++ [name] ∧
      r.file ≠ snippetName ∧ s.texts.get? r.file = none := by
    intro r hmem
    obtain ⟨heq, hasked, hother, hnew⟩ := hr.of_mem r hmem
    exact ⟨heq, List.mem_append_left _ hasked, hother, hnew⟩
  by_cases hname : name = snippetName
  · rw [hname, Store.ask_snippetName]
    refine ⟨new, hr.reads_eq, hr.texts_eq, hname ▸ widen, ?_, hr.nodup⟩
    intro n hn hne hnone
    rcases List.mem_append.mp hn with hn | hn
    · exact hr.exists_read n hn hne hnone
    · exact absurd (List.mem_singleton.mp hn) hne
  · cases hkept : s'.texts.get? name with
    | some text =>
      rw [Store.ask_of_kept hkept]
      refine ⟨new, hr.reads_eq, hr.texts_eq, widen, ?_, hr.nodup⟩
      intro n hn hne hnone
      rcases List.mem_append.mp hn with hn | hn
      · exact hr.exists_read n hn hne hnone
      · -- it is kept now and was not before, so it was read in between
        rw [List.mem_singleton.mp hn] at hnone ⊢
        rw [hr.texts_eq, Texts.get?_append, hnone, Option.none_or] at hkept
        obtain ⟨r, hmem, hr'⟩ := List.mem_filterMap.mp (Texts.mem_of_get?_eq_some hkept)
        obtain ⟨found, -, hfound⟩ := Option.map_eq_some_iff.mp hr'
        exact ⟨r, hmem, congrArg Prod.fst hfound⟩
    | none =>
      have hparts : s.texts.get? name = none ∧
          Texts.get? (new.filterMap Read.kept) name = none := by
        rw [hr.texts_eq, Texts.get?_append] at hkept
        exact Option.or_eq_none_iff.mp hkept
      rw [Store.ask_of_not_kept hname hkept]
      refine ⟨new ++ [readOf library disk name], ?_, ?_, ?_, ?_, ?_⟩
      · simp [hr.reads_eq]
      · simp only [hr.texts_eq, List.filterMap_append, List.append_assoc]
        cases hk : (readOf library disk name).kept <;> simp [hk]
      · intro r hmem
        rcases List.mem_append.mp hmem with hmem | hmem
        · exact widen r hmem
        · rw [List.mem_singleton.mp hmem]
          exact ⟨rfl, by simp [readOf], hname, hparts.1⟩
      · intro n hn hne hnone
        rcases List.mem_append.mp hn with hn | hn
        · obtain ⟨r, hmem, hfile⟩ := hr.exists_read n hn hne hnone
          exact ⟨r, List.mem_append_left _ hmem, hfile⟩
        · rw [List.mem_singleton.mp hn]
          exact ⟨readOf library disk name, by simp, rfl⟩
      · rw [List.filterMap_append, List.map_append, List.nodup_append]
        refine ⟨hr.nodup, ?_, ?_⟩
        · cases hk : (readOf library disk name).kept <;> simp [hk]
        · intro a ha b hb hab
          have hfile : b = name := by
            obtain ⟨e, he, rfl⟩ := List.mem_map.mp hb
            obtain ⟨r, hmem, hr'⟩ := List.mem_filterMap.mp he
            obtain ⟨found, -, hfound⟩ := Option.map_eq_some_iff.mp hr'
            rw [← hfound, List.mem_singleton.mp hmem]
            rfl
          exact (Texts.get?_eq_none_iff _ _).mp hparts.2 (hfile ▸ hab ▸ ha)

end Reading

/-- Asking for some names one after the other reads each of them that is not kept. -/
theorem exists_reading (library : String) (disk : Disk) (s : Store) (names : List String) :
    ∃ new, Reading library disk names s (names.foldl (Store.ask library disk) s) new := by
  induction names using List.reverseRecOn with
  | nil => exact ⟨[], .refl library disk s⟩
  | append_singleton names name ih =>
    obtain ⟨new, hr⟩ := ih
    rw [List.foldl_append]
    exact hr.snoc name

/-! ### Runs -/

/-- The names that a run asks for, in order. -/
def asked (s : Session) (disk : Disk) (d : Dialect) (snippet : String) : List String :=
  match s.declarations d with
  | none => []
  | some path => Program.asked (host s.library disk snippet) (supplyBound disk s.store) (options d)
      [snippetName, path] s.store

theorem run_snd (s : Session) (disk : Disk) (d : Dialect) (snippet : String) :
    (s.run disk d snippet).2 =
      { s with store := (s.asked disk d snippet).foldl (Store.ask s.library disk) s.store } := by
  unfold run asked
  cases s.declarations d with
  | none => rfl
  | some path =>
    have hstore := Program.create_snd_eq (host s.library disk snippet)
      (fun name edition v => supply_snd s.library disk snippet name edition v)
      (supplyBound disk s.store) (options d) [snippetName, path] s.store
    simp only
    rw [← hstore]
    rcases Program.create (host s.library disk snippet) (supplyBound disk s.store) (options d)
      [snippetName, path] s.store with ⟨_ | _, store⟩ <;> rfl

end LuaSnippet.Session
