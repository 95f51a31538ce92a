import LuaSnippet.Proofs.Session.Asking

/-!
# The first read of a name stays

The reads that a store lists account for its texts: what is kept is what the successful reads found,
in their order, and no name was read with success twice. Asking for names keeps such an account, and
so does every step of a session, whatever is written and deleted on the disk in between.
-/

namespace LuaSnippet.Session

open Script (Edition)

/-! ### The account of a store -/

namespace Store

/-- The reads of a store account for its texts. -/
structure Accounted (library : String) (s : Store) : Prop where
  texts_eq : s.texts = s.reads.filterMap Read.kept
  nodup : (s.texts.map (·.1)).Nodup
  path_eq : ∀ r ∈ s.reads, r.path = pathOf library r.file
  file_ne : ∀ r ∈ s.reads, r.file ≠ snippetName

variable {library : String} {disk : Disk} {s s' : Store} {names : List String} {new : List Read}

theorem accounted_empty (library : String) : Accounted library .empty where
  texts_eq := rfl
  nodup := List.nodup_nil
  path_eq := by simp [empty]
  file_ne := by simp [empty]

theorem exists_of_mem_filterMap_kept {reads : List Read} {name text : String}
    (hmem : (name, text) ∈ reads.filterMap Read.kept) :
    ∃ r ∈ reads, r.file = name ∧ r.found = some text := by
  obtain ⟨r, hr, hkept⟩ := List.mem_filterMap.mp hmem
  obtain ⟨found, hfound, heq⟩ := Option.map_eq_some_iff.mp hkept
  rw [Prod.mk.injEq] at heq
  obtain ⟨rfl, rfl⟩ := heq
  exact ⟨r, hr, rfl, hfound⟩

theorem map_filterMap_kept (reads : List Read) :
    (reads.filterMap Read.kept).map (·.1) = (reads.filter (·.found.isSome)).map (·.file) := by
  induction reads with
  | nil => rfl
  | cons r reads ih =>
    cases hfound : r.found with
    | none =>
      rw [List.filterMap_cons_none (by simp [Read.kept, hfound]),
        List.filter_cons_of_neg (by simp [hfound])]
      exact ih
    | some text =>
      have hkept : r.kept = some (r.file, text) := by simp [Read.kept, hfound]
      rw [List.filterMap_cons_some hkept, List.filter_cons_of_pos (by simp [hfound]), List.map_cons,
        List.map_cons, ih]

theorem Accounted.reading (hs : Accounted library s)
    (hr : Reading library disk names s s' new) : Accounted library s' where
  texts_eq := by
    rw [hr.texts_eq, hr.reads_eq, List.filterMap_append, ← hs.texts_eq]
  nodup := by
    rw [hr.texts_eq, List.map_append, List.nodup_append]
    refine ⟨hs.nodup, hr.nodup, ?_⟩
    intro a ha b hb hab
    obtain ⟨⟨name, text⟩, hmem, rfl⟩ := List.mem_map.mp hb
    obtain ⟨r, hread, hfile, -⟩ := exists_of_mem_filterMap_kept hmem
    obtain ⟨-, -, -, hnone⟩ := hr.of_mem r hread
    rw [hfile] at hnone
    have hname : a = name := hab
    exact (Texts.get?_eq_none_iff _ _).mp hnone (hname ▸ ha)
  path_eq := by
    intro r hmem
    rw [hr.reads_eq] at hmem
    rcases List.mem_append.mp hmem with hold | hnew
    · exact hs.path_eq r hold
    · rw [(hr.of_mem r hnew).1]
      rfl
  file_ne := by
    intro r hmem
    rw [hr.reads_eq] at hmem
    rcases List.mem_append.mp hmem with hold | hnew
    · exact hs.file_ne r hold
    · exact (hr.of_mem r hnew).2.2.1

theorem Accounted.snippetName_not_kept (hs : Accounted library s) :
    snippetName ∉ s.texts.map (·.1) := by
  intro hmem
  rw [hs.texts_eq] at hmem
  obtain ⟨⟨name, text⟩, hkept, hname⟩ := List.mem_map.mp hmem
  obtain ⟨r, hr, hfile, -⟩ := exists_of_mem_filterMap_kept hkept
  exact hs.file_ne r hr (hfile.trans hname)

end Store

/-! ### Steps -/

def Step.compiled? : Step → Option (Dialect × String)
  | .run d snippet => some (d, snippet)
  | .require d snippet => some (d, snippet)
  | _ => none

namespace World

/-- A world before its first step: nothing is kept and nothing was read. -/
def fresh (disk : Disk) (library : String) (emit : Program → Emission)
    (declarations : Declarations) : World :=
  ⟨disk, ⟨library, emit, declarations, .empty⟩⟩

def asked (w : World) (step : Step) : List String :=
  match step.compiled? with
  | some (d, snippet) => w.session.asked w.disk d snippet
  | none => []

theorem after_nil (w : World) : w.after [] = w := rfl

theorem after_append (w : World) (before later : List Step) :
    w.after (before ++ later) = (w.after before).after later := by
  unfold after
  rw [List.foldl_append]

theorem after_snoc (w : World) (steps : List Step) (step : Step) :
    w.after (steps ++ [step]) = ((w.after steps).step step).2 := by
  rw [after_append]
  rfl

theorem step_store (w : World) (step : Step) :
    (w.step step).2.session.store =
      (w.asked step).foldl (Store.ask w.session.library w.disk) w.session.store := by
  cases step with
  | run d snippet =>
    simp only [World.step, asked, Step.compiled?]
    rw [run_snd]
  | require d snippet =>
    simp only [World.step, asked, Step.compiled?]
    rw [run_snd]
  | _ => rfl

theorem step_library (w : World) (step : Step) :
    (w.step step).2.session.library = w.session.library := by
  cases step with
  | run d snippet =>
    simp only [World.step]
    rw [run_snd]
  | require d snippet =>
    simp only [World.step]
    rw [run_snd]
  | _ => rfl

theorem after_library (w : World) (steps : List Step) :
    (w.after steps).session.library = w.session.library := by
  induction steps using List.reverseRecOn with
  | nil => rfl
  | append_singleton steps step ih => rw [after_snoc, step_library, ih]

theorem exists_step_reading (w : World) (step : Step) :
    ∃ new, Reading w.session.library w.disk (w.asked step) w.session.store
      (w.step step).2.session.store new := by
  rw [step_store]
  exact exists_reading _ _ _ _

theorem texts_le_step (w : World) (step : Step) :
    w.session.store.texts <+: (w.step step).2.session.store.texts := by
  obtain ⟨new, hr⟩ := w.exists_step_reading step
  rw [hr.texts_eq]
  exact List.prefix_append _ _

theorem texts_le_after (w : World) (steps : List Step) :
    w.session.store.texts <+: (w.after steps).session.store.texts := by
  induction steps using List.reverseRecOn with
  | nil => exact List.prefix_rfl
  | append_singleton steps step ih =>
    rw [after_snoc]
    exact ih.trans (texts_le_step _ step)

theorem accounted_after (disk : Disk) (library : String) (emit : Program → Emission)
    (declarations : Declarations) (steps : List Step) :
    ((fresh disk library emit declarations).after steps).session.store.Accounted library := by
  induction steps using List.reverseRecOn with
  | nil => exact Store.accounted_empty library
  | append_singleton steps step ih =>
    obtain ⟨new, hr⟩ := ((fresh disk library emit declarations).after steps).exists_step_reading step
    rw [after_library] at hr
    rw [after_snoc]
    exact ih.reading hr

/-- A text that is kept was found at one of the steps so far, the first that left one for its
name. -/
theorem exists_first_read (start : World) (hstart : start.session.store = .empty)
    (steps : List Step) {name text : String}
    (hkept : (start.after steps).session.store.texts.get? name = some text) :
    ∃ before step later, steps = before ++ step :: later ∧
      (start.after before).session.store.texts.get? name = none ∧
      name ∈ (start.after before).asked step ∧
      (start.after before).disk.read? (pathOf start.session.library name) = some text ∧
      (start.after (before ++ [step])).session.store.texts.get? name = some text := by
  induction steps using List.reverseRecOn with
  | nil =>
    rw [after_nil, hstart] at hkept
    simp [Store.empty, Texts.get?_nil] at hkept
  | append_singleton steps step ih =>
    obtain ⟨new, hr⟩ := (start.after steps).exists_step_reading step
    have hget := hkept
    rw [after_snoc, hr.texts_eq, Texts.get?_append] at hget
    cases hold : (start.after steps).session.store.texts.get? name with
    | some old =>
      rw [hold, Option.some_or, Option.some.injEq] at hget
      obtain ⟨before, s, later, rfl, hfirst⟩ := ih (hget ▸ hold)
      exact ⟨before, s, later ++ [step], by simp, hfirst⟩
    | none =>
      rw [hold, Option.none_or] at hget
      obtain ⟨r, hmem, hfile, hfound⟩ :=
        Store.exists_of_mem_filterMap_kept (Texts.mem_of_get?_eq_some hget)
      obtain ⟨hread, hasked, -, -⟩ := hr.of_mem r hmem
      refine ⟨steps, step, [], rfl, hold, hfile ▸ hasked, ?_, hkept⟩
      rw [hread, after_library, hfile] at hfound
      exact hfound

end World

/-! ### The first read wins -/

/-- How a session that starts with nothing keeps what it reads, on any disk and at any point. -/
structure FirstReads (start : World) (steps : List Step) : Prop where
  /-- What is kept is what the successful reads found, in their order. -/
  texts_eq : (start.after steps).session.store.texts =
    (start.after steps).session.store.reads.filterMap Read.kept
  /-- No name is read with success more than once. -/
  nodup : (((start.after steps).session.store.reads.filter (·.found.isSome)).map (·.file)).Nodup
  /-- What is kept stays as it is, whatever comes later. -/
  stays : ∀ later, (start.after steps).session.store.texts <+:
    (start.after (steps ++ later)).session.store.texts
  /-- A kept text is what the disk held, when a step asked for the name, at the path that belongs to
  the name. -/
  first : ∀ name text, (start.after steps).session.store.texts.get? name = some text →
    ∃ before step later, steps = before ++ step :: later ∧
      (start.after before).session.store.texts.get? name = none ∧
      name ∈ (start.after before).asked step ∧
      (start.after before).disk.read? (pathOf start.session.library name) = some text ∧
      (start.after (before ++ [step])).session.store.texts.get? name = some text
  /-- A step reads what it asks for and is not kept, failed reads of earlier steps included. -/
  next : ∀ step, ∃ new, Reading start.session.library (start.after steps).disk
    ((start.after steps).asked step) (start.after steps).session.store
    (start.after (steps ++ [step])).session.store new
  /-- The name of the snippet is never read and nothing is kept under it. -/
  snippet : snippetName ∉ (start.after steps).session.store.texts.map (·.1) ∧
    snippetName ∉ (start.after steps).session.store.reads.map (·.file)
  /-- Without a declaration file for its dialect, a step that compiles reads nothing. -/
  unmapped : ∀ step d snippet, step.compiled? = some (d, snippet) →
    (start.after steps).session.declarations d = none →
    (start.after (steps ++ [step])).session.store = (start.after steps).session.store

/-- **The first read of a name stays.** In every session, whatever is compiled, mapped, written and
deleted in whatever order, the kept texts are those of the first successful reads, and a name is read
exactly when it is asked for and not kept. -/
theorem first_read_stays (disk : Disk) (library : String) (emit : Program → Emission)
    (declarations : Declarations) (steps : List Step) :
    FirstReads (World.fresh disk library emit declarations) steps := by
  have account := World.accounted_after disk library emit declarations steps
  refine ⟨account.texts_eq, ?_, ?_, ?_, ?_, ⟨account.snippetName_not_kept, ?_⟩, ?_⟩
  · rw [← Store.map_filterMap_kept, ← account.texts_eq]
    exact account.nodup
  · intro later
    rw [World.after_append]
    exact World.texts_le_after _ later
  · intro name text hkept
    exact World.exists_first_read _ rfl steps hkept
  · intro step
    obtain ⟨new, hr⟩ := World.exists_step_reading _ step
    rw [World.after_library] at hr
    rw [World.after_snoc]
    exact ⟨new, hr⟩
  · intro hmem
    obtain ⟨r, hr, hfile⟩ := List.mem_map.mp hmem
    exact account.file_ne r hr hfile
  · intro step d snippet hstep hnone
    rw [World.after_snoc, World.step_store, World.asked, hstep]
    simp only [asked, hnone]
    rfl

end LuaSnippet.Session
