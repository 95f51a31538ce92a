import LuaSnippet.Proofs.Program.Depth
import LuaSnippet.Proofs.Session.Extent
import LuaSnippet.Proofs.Session.FirstRead

/-!
# Keeping texts changes no outcome

As long as nothing is written or deleted, whatever is kept under a name is what the disk holds at
its path. A run is then handed out the same files as one that starts with nothing kept, and so has
the same outcome, whatever was compiled before it. The names that it asks for are the same as well,
so that a run that was handed out every file reads nothing when it is repeated.
-/

namespace LuaSnippet

open Script (Edition File)
open Program (Unreadable Host Alike Loaded)

namespace Session

/-! ### Stores that agree with a disk -/

/-- Every kept text is what the disk holds for its name. -/
def Store.Coherent (library : String) (disk : Disk) (s : Store) : Prop :=
  ∀ name text, s.texts.get? name = some text → disk.read? (pathOf library name) = some text

section

variable {library : String} {disk : Disk} {s : Store} {snippet name : String} {edition : Edition}

theorem Store.coherent_empty (library : String) (disk : Disk) : Coherent library disk .empty := by
  intro name text hkept
  simp [empty, Texts.get?_nil] at hkept

theorem Store.Coherent.ask (hs : s.Coherent library disk) (name : String) :
    (s.ask library disk name).Coherent library disk := by
  by_cases hname : name = snippetName
  · rw [hname, ask_snippetName]
    exact hs
  · cases hkept : s.texts.get? name with
    | some text =>
      rw [ask_of_kept hkept]
      exact hs
    | none =>
      rw [ask_of_not_kept hname hkept]
      intro n text hn
      simp only [Texts.get?_append] at hn
      rcases Option.or_eq_some_iff.mp hn with hold | ⟨-, hnew⟩
      · exact hs n text hold
      · have hmem := Texts.mem_of_get?_eq_some hnew
        rw [Option.mem_toList, Read.kept, Option.map_eq_some_iff] at hmem
        obtain ⟨found, hfound, heq⟩ := hmem
        obtain ⟨rfl, rfl⟩ := Prod.mk.inj heq
        exact hfound

theorem Store.Coherent.askAll (hs : s.Coherent library disk) (names : List String) :
    (names.foldl (Store.ask library disk) s).Coherent library disk := by
  induction names generalizing s with
  | nil => exact hs
  | cons name names ih => exact ih (hs.ask name)

/-- What a run is handed out for a name where the store agrees with the disk. -/
def handed (library : String) (disk : Disk) (snippet name : String) (edition : Edition) :
    Except Unreadable File :=
  if name = snippetName then .ok (.read name snippet edition)
  else match disk.read? (pathOf library name) with
    | some text => .ok (.read name text edition)
    | none => .error ⟨name, pathOf library name⟩

theorem Store.Coherent.supply_fst (hs : s.Coherent library disk) :
    (supply library disk snippet name edition s).1 = handed library disk snippet name edition := by
  unfold supply handed
  by_cases hname : name = snippetName
  · rw [if_pos hname, if_pos hname]
  · rw [if_neg hname, if_neg hname]
    unfold load
    cases hkept : s.texts.get? name with
    | some text => rw [hs name text hkept]
    | none =>
      unfold fetch
      cases disk.read? (pathOf library name) <;> rfl

theorem name_of_handed_eq_ok {f : File}
    (hf : handed library disk snippet name edition = .ok f) :
    name = snippetName ∨ ∃ text, disk.read? (pathOf library name) = some text := by
  unfold handed at hf
  by_cases hname : name = snippetName
  · exact .inl hname
  · rw [if_neg hname] at hf
    cases hread : disk.read? (pathOf library name) with
    | some text => exact .inr ⟨text, rfl⟩
    | none =>
      rw [hread] at hf
      simp at hf

end

/-! ### How many files a run can be handed out -/

/-- The names that a run can ask for: the snippet, the declaration file and folded names. -/
def Askable (path name : String) : Prop :=
  name = snippetName ∨ name = path ∨ Path.IsFolded name

/-- The keys of all names that a run can be handed out a file for. -/
def suppliedKeys (library : String) (disk : Disk) (snippet path : String) : List String :=
  (snippetName :: path :: suppliedNames library disk).map (host library disk snippet).key

theorem length_suppliedKeys_le (library : String) (disk : Disk) (snippet path : String)
    (s : Store) : (suppliedKeys library disk snippet path).length ≤ supplyBound disk s := by
  have hlength := length_suppliedNames_le library disk
  simp only [suppliedKeys, supplyBound, List.length_map, List.length_cons]
  omega

theorem supplies_noting (library : String) (disk : Disk) (snippet path : String) :
    (host library disk snippet).noting.Supplies (fun w => w.1.Coherent library disk)
      (Askable path) (suppliedKeys library disk snippet path) where
  keeps := by
    intro name edition w hw
    rw [Host.noting, host]
    simp only [supply_snd]
    exact hw.ask name
  mem_keys := by
    intro name edition w f w' hw hname hf
    have hfile := congrArg Prod.fst hf
    rw [Host.noting, host] at hfile
    simp only [hw.supply_fst] at hfile
    refine List.mem_map.mpr ⟨name, ?_, rfl⟩
    rcases name_of_handed_eq_ok hfile with rfl | ⟨text, hread⟩
    · exact List.mem_cons_self
    · rcases hname with rfl | rfl | hfolded
      · exact List.mem_cons_self
      · exact List.mem_cons_of_mem _ List.mem_cons_self
      · exact List.mem_cons_of_mem _ (List.mem_cons_of_mem _ (mem_suppliedNames hfolded hread))
  references := by
    intro name edition w f w' _ _ _ r hr
    obtain ⟨relative, -, rfl⟩ := List.mem_map.mp hr
    exact .inr (.inr (Path.isFolded_resolve name relative))

theorem askable_startNames {library : String} {disk : Disk} {snippet path : String} {d : Dialect} :
    ∀ name ∈ Program.startNames (host library disk snippet).noting (options d) [snippetName, path],
      Askable path name := by
  intro name hname
  have hnames : Program.startNames (host library disk snippet).noting (options d)
      [snippetName, path] = [snippetName, path, "lib.d.ts"] := rfl
  rw [hnames] at hname
  simp only [List.mem_cons, List.not_mem_nil, or_false] at hname
  rcases hname with rfl | rfl | rfl
  · exact .inl rfl
  · exact .inr (.inl rfl)
  · refine .inr (.inr ⟨false, [.down "lib.d.ts"], ⟨?_, by simp⟩, by decide +kernel⟩)
    intro s hs
    rw [List.mem_singleton.mp hs]
    exact ⟨by decide +kernel, by decide +kernel⟩

/-! ### Runs over coherent stores -/

theorem agrees_of_coherent (library : String) (disk : Disk) (snippet : String) :
    (host library disk snippet).noting.Agrees (host library disk snippet).noting fun w v =>
      w.2 = v.2 ∧ w.1.Coherent library disk ∧ v.1.Coherent library disk where
  has := rfl
  canonical := rfl
  caseSensitive := rfl
  directory := rfl
  newLine := rfl
  library := rfl
  fetch := by
    rintro name edition ⟨w, names⟩ ⟨v, -⟩ ⟨rfl, hw, hv⟩
    rw [Host.noting, host]
    refine ⟨?_, ?_, ?_⟩
    · simp only [hw.supply_fst, hv.supply_fst]
    · rfl
    · simp only [supply_snd]
      exact ⟨hw.ask name, hv.ask name⟩

/-- Creating a program over a store that agrees with the disk, with the bound that belongs to the
store, and over an empty one comes to the same and asks for the same names. -/
theorem create_alike_of_coherent {library : String} {disk : Disk} {s : Store}
    (hs : s.Coherent library disk) (d : Dialect) (snippet path : String) :
    Alike (fun w v => w.2 = v.2)
      (Program.create (host library disk snippet).noting (supplyBound disk s) (options d)
        [snippetName, path] (s, []))
      (Program.create (host library disk snippet).noting (supplyBound disk .empty) (options d)
        [snippetName, path] (.empty, [])) := by
  have hsupplies := supplies_noting library disk snippet path
  rw [hsupplies.create_eq (length_suppliedKeys_le library disk snippet path s)
    (length_suppliedKeys_le library disk snippet path .empty) (options d) [snippetName, path]
    askable_startNames hs]
  have hsim := Program.create_sim (agrees_of_coherent library disk snippet)
    (supplyBound disk .empty) (options d) [snippetName, path] (w := (s, [])) (v := (.empty, []))
    ⟨rfl, hs, Store.coherent_empty library disk⟩
  exact ⟨hsim.1, hsim.2.1⟩

theorem create_fst_eq_noting (library : String) (disk : Disk) (snippet : String) (supply : Nat)
    (o : Program.Options) (roots : List String) (s : Store) :
    (Program.create (host library disk snippet) supply o roots s).1 =
      (Program.create (host library disk snippet).noting supply o roots (s, [])).1 :=
  (Program.create_sim ((host library disk snippet).agrees_noting s
    fun name edition v => supply_snd library disk snippet name edition v) supply o roots
    (w := s) (v := (s, [])) ⟨rfl, rfl⟩).1

/-- A session with the same settings that keeps nothing. -/
def forget (s : Session) : Session := { s with store := .empty }

theorem run_fst (s : Session) (disk : Disk) (d : Dialect) (snippet : String) :
    (s.run disk d snippet).1 = match s.declarations d with
      | none => .error (.unmapped d)
      | some path =>
        match (Program.create (host s.library disk snippet) (supplyBound disk s.store) (options d)
          [snippetName, path] s.store).1 with
        | .ok p => outcome d p (s.emit p)
        | .error u => .error (.unreadable u) := by
  unfold run
  cases s.declarations d with
  | none => rfl
  | some path =>
    simp only
    rcases Program.create (host s.library disk snippet) (supplyBound disk s.store) (options d)
      [snippetName, path] s.store with ⟨_ | _, _⟩ <;> rfl

theorem run_fst_eq_forget {s : Session} {disk : Disk} (hs : s.store.Coherent s.library disk)
    (d : Dialect) (snippet : String) :
    (s.run disk d snippet).1 = (s.forget.run disk d snippet).1 := by
  rw [run_fst, run_fst]
  simp only [forget]
  cases s.declarations d with
  | none => rfl
  | some path =>
    have halike := create_alike_of_coherent hs d snippet path
    simp only
    rw [create_fst_eq_noting, create_fst_eq_noting, halike.1]

theorem asked_eq_forget {s : Session} {disk : Disk} (hs : s.store.Coherent s.library disk)
    (d : Dialect) (snippet : String) :
    s.asked disk d snippet = s.forget.asked disk d snippet := by
  unfold asked
  simp only [forget]
  cases s.declarations d with
  | none => rfl
  | some path => exact (create_alike_of_coherent hs d snippet path).2

/-! ### Repeated runs -/

/-- Every one of some names is that of the snippet or kept. -/
def AllKept (s : Store) (names : List String) : Prop :=
  ∀ name ∈ names, name = snippetName ∨ ∃ text, s.texts.get? name = some text

theorem askAll_of_allKept {library : String} {disk : Disk} {s : Store} {names : List String}
    (hall : AllKept s names) : names.foldl (Store.ask library disk) s = s := by
  induction names with
  | nil => rfl
  | cons name names ih =>
    have hname : s.ask library disk name = s := by
      rcases hall name List.mem_cons_self with rfl | ⟨text, hkept⟩
      · exact Store.ask_snippetName
      · exact Store.ask_of_kept hkept
    rw [List.foldl_cons, hname]
    exact ih fun n hn => hall n (List.mem_cons_of_mem _ hn)

theorem get?_of_prefix {t u : Texts} (hpre : t <+: u) {name text : String}
    (hkept : t.get? name = some text) : u.get? name = some text := by
  obtain ⟨new, rfl⟩ := hpre
  rw [Texts.get?_append, hkept, Option.some_or]

theorem AllKept.mono {s s' : Store} {names : List String} (hall : AllKept s names)
    (hpre : s.texts <+: s'.texts) : AllKept s' names := by
  intro name hname
  rcases hall name hname with hsnippet | ⟨text, hkept⟩
  · exact .inl hsnippet
  · exact .inr ⟨text, get?_of_prefix hpre hkept⟩

theorem texts_le_ask (library : String) (disk : Disk) (s : Store) (name : String) :
    s.texts <+: (s.ask library disk name).texts := by
  obtain ⟨new, hr⟩ := exists_reading library disk s [name]
  have htexts := hr.texts_eq
  rw [List.foldl_cons, List.foldl_nil] at htexts
  rw [htexts]
  exact List.prefix_append _ _

theorem kept_of_supply_eq_ok {library : String} {disk : Disk} {snippet name : String}
    {edition : Edition} {s s' : Store} {f : File} (hname : name ≠ snippetName)
    (hf : supply library disk snippet name edition s = (.ok f, s')) :
    ∃ text, s'.texts.get? name = some text := by
  unfold supply Store.load Store.fetch at hf
  rw [if_neg hname] at hf
  cases hkept : s.texts.get? name with
  | some text =>
    rw [hkept] at hf
    obtain ⟨-, rfl⟩ := Prod.mk.inj hf
    exact ⟨text, hkept⟩
  | none =>
    rw [hkept] at hf
    cases hread : disk.read? (pathOf library name) with
    | none =>
      rw [hread] at hf
      simp at hf
    | some text =>
      rw [hread] at hf
      obtain ⟨-, rfl⟩ := Prod.mk.inj hf
      refine ⟨text, ?_⟩
      simp only [Texts.get?_append, hkept, Option.none_or, Texts.get?_cons, if_true]

theorem invariant_allKept (library : String) (disk : Disk) (snippet : String) :
    (host library disk snippet).noting.Invariant fun _ w => AllKept w.1 w.2 where
  meet _ _ _ hw := hw
  push _ _ _ hw := hw
  miss _ _ _ _ hw := hw
  fetch := by
    rintro l ⟨w, names⟩ name edition f ⟨w', names'⟩ hw hf
    obtain ⟨hfile, hstate⟩ := Prod.mk.inj hf
    obtain ⟨hstore, rfl⟩ := Prod.mk.inj hstate
    have hpair : supply library disk snippet name edition w = (.ok f, w') := Prod.ext hfile hstore
    have hpre : w.texts <+: w'.texts := by
      rw [← hstore]
      simp only [host, supply_snd]
      exact texts_le_ask library disk w name
    intro n hn
    rcases List.mem_append.mp hn with hold | hnew
    · exact hw.mono hpre n hold
    · rw [List.mem_singleton.mp hnew]
      by_cases hname : name = snippetName
      · exact .inl hname
      · exact .inr (kept_of_supply_eq_ok hname hpair)

theorem allKept_of_run {s : Session} {disk : Disk} {d : Dialect} {snippet : String}
    (hok : ∀ u, (s.run disk d snippet).1 ≠ .error (.unreadable u)) :
    AllKept (s.run disk d snippet).2.store (s.asked disk d snippet) := by
  rw [run_fst] at hok
  rw [run_snd]
  unfold asked
  cases hpath : s.declarations d with
  | none => intro name hname; simp at hname
  | some path =>
    rw [hpath] at hok
    simp only at hok ⊢
    rw [← Program.create_snd_eq (host s.library disk snippet)
      (fun name edition v => supply_snd s.library disk snippet name edition v)]
    have hsim := Program.create_sim ((host s.library disk snippet).agrees_noting s.store
      fun name edition v => supply_snd s.library disk snippet name edition v)
      (supplyBound disk s.store) (options d) [snippetName, path] (w := s.store)
      (v := (s.store, [])) ⟨rfl, rfl⟩
    obtain ⟨hresult, hstore, -⟩ := hsim
    rw [hresult] at hok
    rw [hstore, Program.asked]
    rcases hcreate : Program.create (host s.library disk snippet).noting (supplyBound disk s.store)
      (options d) [snippetName, path] (s.store, []) with ⟨u | p, w⟩
    · rw [hcreate] at hok
      exact absurd rfl (hok u)
    · obtain ⟨l, hall⟩ := (invariant_allKept s.library disk snippet).create
        (by intro name hname; simp at hname) hcreate
      exact hall

/-! ### Sessions on a disk that stays as it is -/

/-- Whether a step leaves the disk as it is. -/
def Step.isSteady : Step → Bool
  | .write _ _ => false
  | .delete _ => false
  | _ => true

namespace World

theorem step_disk (w : World) {step : Step} (hstep : step.isSteady = true) :
    (w.step step).2.disk = w.disk := by
  cases step with
  | write path text => simp [Step.isSteady] at hstep
  | delete path => simp [Step.isSteady] at hstep
  | _ => rfl

theorem step_emit (w : World) (step : Step) : (w.step step).2.session.emit = w.session.emit := by
  cases step with
  | run d snippet =>
    simp only [World.step]
    rw [run_snd]
  | require d snippet =>
    simp only [World.step]
    rw [run_snd]
  | _ => rfl

/-- A world whose store agrees with its disk, and its disk, library and emitter. -/
structure Steady (disk : Disk) (library : String) (emit : Program → Emission) (w : World) : Prop where
  disk_eq : w.disk = disk
  library_eq : w.session.library = library
  emit_eq : w.session.emit = emit
  coherent : w.session.store.Coherent library disk

theorem Steady.step {disk : Disk} {library : String} {emit : Program → Emission} {w : World}
    (hw : Steady disk library emit w) {s : Step} (hs : s.isSteady = true) :
    Steady disk library emit (w.step s).2 where
  disk_eq := by rw [step_disk w hs, hw.disk_eq]
  library_eq := by rw [step_library, hw.library_eq]
  emit_eq := by rw [step_emit, hw.emit_eq]
  coherent := by
    rw [step_store, hw.library_eq, hw.disk_eq]
    exact hw.coherent.askAll _

theorem Steady.after {disk : Disk} {library : String} {emit : Program → Emission} {w : World}
    (hw : Steady disk library emit w) {steps : List Step}
    (hsteps : ∀ step ∈ steps, step.isSteady = true) :
    Steady disk library emit (w.after steps) := by
  induction steps using List.reverseRecOn with
  | nil => exact hw
  | append_singleton steps step ih =>
    rw [after_snoc]
    exact (ih fun s hs => hsteps s (List.mem_append_left _ hs)).step (hsteps step (by simp))

theorem steady_fresh (disk : Disk) (library : String) (emit : Program → Emission)
    (declarations : Declarations) :
    Steady disk library emit (fresh disk library emit declarations) :=
  ⟨rfl, rfl, rfl, Store.coherent_empty library disk⟩

/-- Two worlds on one disk whose stores agree with it give a snippet the same outcome if they have
the same declaration file for its dialect. -/
theorem Steady.run_fst_eq {disk : Disk} {library : String} {emit : Program → Emission}
    {w v : World} (hw : Steady disk library emit w) (hv : Steady disk library emit v) {d : Dialect}
    (hd : w.session.declarations d = v.session.declarations d) (snippet : String) :
    (w.session.run disk d snippet).1 = (v.session.run disk d snippet).1 ∧
      w.session.asked disk d snippet = v.session.asked disk d snippet := by
  have hws := hw.coherent
  have hvs := hv.coherent
  rw [← hw.library_eq] at hws
  rw [← hv.library_eq] at hvs
  rw [run_fst_eq_forget hws, run_fst_eq_forget hvs, asked_eq_forget hws, asked_eq_forget hvs]
  refine ⟨?_, ?_⟩
  · rw [run_fst, run_fst]
    simp only [forget, hd, hw.library_eq, hv.library_eq, hw.emit_eq, hv.emit_eq]
  · unfold Session.asked
    simp only [forget, hd, hw.library_eq, hv.library_eq]

/-- A run that was handed out every file reads nothing when it is repeated, and has the same outcome
again, whatever comes in between that leaves the disk as it is. -/
theorem Steady.run_again {disk : Disk} {library : String} {emit : Program → Emission} {w : World}
    (hw : Steady disk library emit w) {d : Dialect} {snippet : String}
    (hok : ∀ u, (w.session.run disk d snippet).1 ≠ .error (.unreadable u)) {later : List Step}
    (hlater : ∀ step ∈ later, step.isSteady = true)
    (hd : (w.after (.run d snippet :: later)).session.declarations d = w.session.declarations d) :
    (w.after (.run d snippet :: later)).session.run disk d snippet =
      ((w.session.run disk d snippet).1, (w.after (.run d snippet :: later)).session) := by
  have hnext : Steady disk library emit (w.after [.run d snippet]) :=
    hw.after (by simp [Step.isSteady])
  have hv : Steady disk library emit (w.after (.run d snippet :: later)) := by
    rw [← List.singleton_append, after_append]
    exact hnext.after hlater
  obtain ⟨hresult, hasked⟩ := hv.run_fst_eq hw hd snippet
  have hall : AllKept (w.after (.run d snippet :: later)).session.store
      (w.session.asked disk d snippet) := by
    refine (allKept_of_run hok).mono ?_
    have hle := texts_le_after (w.after [.run d snippet]) later
    rw [← after_append, List.singleton_append] at hle
    have hrun : (w.after [.run d snippet]).session.store =
        (w.session.run disk d snippet).2.store := by
      rw [← hw.disk_eq]
      rfl
    rw [← hrun]
    exact hle
  refine Prod.ext hresult ?_
  rw [run_snd, hasked, askAll_of_allKept hall]

end World

/-- **What is kept changes no outcome.** On a disk that stays as it is, whatever was compiled and
mapped before, a snippet has the outcome that it has in a session with the same declaration files
that keeps nothing; and if it was handed out every file, then compiling it again at any later time
with the same declaration file has the same outcome, and reads and changes nothing. -/
theorem run_eq_fresh (disk : Disk) (library : String) (emit : Program → Emission)
    (declarations : Declarations) (steps : List Step)
    (hsteps : ∀ step ∈ steps, step.isSteady = true) (d : Dialect) (snippet : String) :
    let w := (World.fresh disk library emit declarations).after steps
    (w.session.run disk d snippet).1 =
        ((World.fresh disk library emit w.session.declarations).session.run disk d snippet).1 ∧
      ((∀ u, (w.session.run disk d snippet).1 ≠ .error (.unreadable u)) →
        ∀ later : List Step, (∀ step ∈ later, step.isSteady = true) →
          let v := w.after (.run d snippet :: later)
          v.session.declarations d = w.session.declarations d →
          v.session.run disk d snippet = ((w.session.run disk d snippet).1, v.session)) := by
  intro w
  have hw : World.Steady disk library emit w :=
    (World.steady_fresh disk library emit declarations).after hsteps
  have hfresh := World.steady_fresh disk library emit w.session.declarations
  refine ⟨(hw.run_fst_eq hfresh rfl snippet).1, ?_⟩
  intro hok later hlater v hd
  exact hw.run_again hok hlater hd

/-- A disk with a declaration file and a default library. -/
def twoFiles : Disk :=
  ⟨[("t.d.ts", "declare const x: number;"), ("lib/lib.d.ts", "")], [], .empty⟩

/-- Steps that fail, first without a declaration file and then with one that is not there, before
the right one is set and a name turns out to be unknown. -/
def failingSteps : List Step :=
  [.run .lua51 "x;", .setDeclaration .lua51 (some "u.d.ts"), .run .lua51 "x;",
    .setDeclaration .lua51 (some "t.d.ts"), .run .lua51 "y;"]

/-- After failed runs a snippet compiles as in a session that keeps nothing, and compiling it again
after another that fails reads nothing. -/
theorem failingSteps_run_eq_fresh :
    let w := (World.fresh twoFiles "lib" Program.emit fun _ => none).after failingSteps
    let v := w.after [.run .lua51 "const y = x;", .run .lua51 "z;"]
    (∀ step ∈ failingSteps, step.isSteady = true) ∧
      (w.session.run twoFiles .lua51 "const y = x;").1 = .ok "local y = x" ∧
      ((World.fresh twoFiles "lib" Program.emit w.session.declarations).session.run twoFiles .lua51
        "const y = x;").1 = .ok "local y = x" ∧
      v.session.run twoFiles .lua51 "const y = x;" = (.ok "local y = x", v.session) := by
  intro w v
  have hsteps : ∀ step ∈ failingSteps, step.isSteady = true := by decide
  have hrun : (w.session.run twoFiles .lua51 "const y = x;").1 = .ok "local y = x" := by
    decide +kernel
  obtain ⟨hfresh, hagain⟩ := run_eq_fresh twoFiles "lib" Program.emit (fun _ => none) failingSteps
    hsteps .lua51 "const y = x;"
  refine ⟨hsteps, hrun, hfresh ▸ hrun, ?_⟩
  have hagain' := hagain (fun u => by rw [hrun]; simp) [.run .lua51 "z;"] (by decide)
    (by decide +kernel)
  rw [hrun] at hagain'
  exact hagain'

end Session

end LuaSnippet
