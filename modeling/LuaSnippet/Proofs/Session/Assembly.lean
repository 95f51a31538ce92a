import LuaSnippet.Proofs.Program.Closure
import LuaSnippet.Proofs.Session.Transparency

/-!
# What a run assembles

The text that a run is handed out for a name is settled when the run starts: it is the snippet, a text
that is kept, or else what the disk holds. Nothing that is asked for on the way changes it, so that the
run loads what a host loads that answers as it does at the start. The program of a run is therefore
made of the snippet and of the closure of its references, whatever the store holds (`assembled`).
-/

namespace LuaSnippet

open Script (Edition File)

namespace Program

variable {σ : Type}

/-! ### Hosts that stand still -/

/-- Whether a host answers alike before and after everything it is asked for. -/
def Host.IsSteady (h : Host σ) : Prop :=
  ∀ w asked edition name edition', (h.fetch name edition' (h.fetch asked edition w).2).1 =
    (h.fetch name edition' w).1

/-- The host that always answers as another one does from a state. -/
def Host.still (h : Host σ) (w : σ) : Host Unit where
  has := h.has
  canonical := h.canonical
  caseSensitive := h.caseSensitive
  directory := h.directory
  newLine := h.newLine
  library := h.library
  fetch name edition _ := ((h.fetch name edition w).1, ())

variable {h : Host σ} {w : σ}

theorem Host.IsSteady.agrees_still (hh : h.IsSteady) (w : σ) :
    h.Agrees (h.still w) fun v _ => ∀ name edition,
      (h.fetch name edition v).1 = (h.fetch name edition w).1 where
  has := rfl
  canonical := rfl
  caseSensitive := rfl
  directory := rfl
  newLine := rfl
  library := rfl
  fetch asked edition v _ hv := by
    refine ⟨hv asked edition, fun name edition' => ?_⟩
    rw [hh v asked edition name edition', hv]

/-- A steady host gives the program that it gives if it stands still. -/
theorem Host.IsSteady.create_fst (hh : h.IsSteady) (supply : Nat) (options : Options)
    (roots : List String) (w : σ) :
    (create h supply options roots w).1 = (create (h.still w) supply options roots ()).1 :=
  (create_sim (hh.agrees_still w) supply options roots fun _ _ => rfl).1

theorem mem_files_of_loads {edition : Edition} {name : String} {names : List String} {w' : σ}
    {l : Loaded} {file : String → Edition → Except Unreadable File} (hh : h.Answers file)
    (hx : Loads h edition none (name :: names) .empty w (.ok l, w')) (hhas : h.has name = true) :
    ∃ f ∈ l.files, f.name = name := by
  have keeps (f : File) : h.Keeps edition (fun _ _ => True) fun _ l _ => f ∈ l.files :=
    ⟨fun _ _ _ _ _ hf _ _ _ => hf, fun _ _ _ _ _ _ hf _ _ _ _ => hf, fun _ _ _ _ _ => trivial,
      fun _ _ _ _ hf _ => List.mem_append_left _ hf⟩
  cases hx with
  | met hmet => exact absurd hmet List.not_mem_nil
  | missing _ hmissing => simp [hhas] at hmissing
  | loaded hnew hhas' hfetch hrefs hrest =>
    rename_i f w₁ l₁ w₂
    have hmem := (keeps f).loads hh hrest [] (List.mem_append_right _ (List.mem_singleton.mpr rfl))
      fun _ _ => trivial
    exact ⟨f, hmem, hh.name_eq_of_fetch hfetch⟩

end Program

namespace Session

open Program (Unreadable Host Needed Closed)

/-! ### The texts of a run -/

/-- The text that a run is handed out for a name: the snippet, a text that is kept, or else what the
disk holds. -/
def Store.textFor (s : Store) (library : String) (disk : Disk) (snippet name : String) :
    Option String :=
  if name = snippetName then some snippet
  else (s.texts.get? name).or (disk.read? (pathOf library name))

variable {library : String} {disk : Disk} {s : Store} {snippet name : String} {edition : Edition}

theorem supply_fst (library : String) (disk : Disk) (snippet name : String) (edition : Edition)
    (s : Store) : (supply library disk snippet name edition s).1 =
      match s.textFor library disk snippet name with
      | some text => .ok (.read name text edition)
      | none => .error ⟨name, pathOf library name⟩ := by
  unfold supply Store.textFor Store.load Store.fetch
  by_cases hname : name = snippetName
  · rw [if_pos hname, if_pos hname]
  · rw [if_neg hname, if_neg hname]
    cases s.texts.get? name with
    | some text => rfl
    | none => cases disk.read? (pathOf library name) <;> rfl

theorem Store.textFor_ask (library : String) (disk : Disk) (snippet : String) (s : Store)
    (asked name : String) :
    (s.ask library disk asked).textFor library disk snippet name =
      s.textFor library disk snippet name := by
  by_cases hasked : asked = snippetName
  · rw [hasked, Store.ask_snippetName]
  · cases hkept : s.texts.get? asked with
    | some text => rw [Store.ask_of_kept hkept]
    | none =>
      rw [Store.ask_of_not_kept hasked hkept]
      unfold Store.textFor
      split
      · rfl
      · simp only [Texts.get?_append]
        by_cases hname : name = asked
        · rw [hname, hkept]
          cases hread : disk.read? (pathOf library asked) with
          | none => simp [readOf, Read.kept, hread, Texts.get?_nil]
          | some text => simp [readOf, Read.kept, hread, Texts.get?_cons]
        · have hother : Texts.get? (readOf library disk asked).kept.toList name = none := by
            rw [Texts.get?_eq_none_iff]
            cases hread : disk.read? (pathOf library asked) with
            | none => simp [readOf, Read.kept, hread]
            | some text => simpa [readOf, Read.kept, hread] using hname
          rw [hother, Option.or_none]

theorem isSteady_host (library : String) (disk : Disk) (snippet : String) :
    (host library disk snippet).IsSteady := by
  intro s asked edition name edition'
  simp only [host, supply_snd, supply_fst, Store.textFor_ask]

/-! ### The host of a run, standing still -/

/-- What a run over a store is handed out for a name. -/
abbrev Store.fileFor (s : Store) (library : String) (disk : Disk) (snippet : String) :
    String → Edition → Except Unreadable File :=
  fun name edition => (supply library disk snippet name edition s).1

theorem Store.fileFor_eq_ok {f : File}
    (hf : s.fileFor library disk snippet name edition = .ok f) :
    ∃ text, s.textFor library disk snippet name = some text ∧ f = .read name text edition := by
  rw [Store.fileFor, supply_fst] at hf
  cases htext : s.textFor library disk snippet name with
  | some text =>
    rw [htext, Except.ok.injEq] at hf
    exact ⟨text, rfl, hf.symm⟩
  | none =>
    rw [htext] at hf
    simp at hf

theorem name_read (name text : String) (edition : Edition) :
    (File.read name text edition).name = name := by
  unfold File.read
  split <;> rfl

theorem answers_still (library : String) (disk : Disk) (snippet : String) (s : Store) :
    ((host library disk snippet).still s).Answers (s.fileFor library disk snippet) where
  fetch_fst _ _ _ := rfl
  name_eq name edition f hf := by
    obtain ⟨text, -, rfl⟩ := Store.fileFor_eq_ok hf
    exact name_read name text edition

/-- The keys of all names that a run over a store can be handed out a file for. -/
def Store.keysFor (s : Store) (library : String) (disk : Disk) (snippet path : String) :
    List String :=
  (snippetName :: path :: (s.texts.map (·.1) ++ suppliedNames library disk)).map
    (host library disk snippet).key

theorem Store.length_keysFor_le (s : Store) (library : String) (disk : Disk)
    (snippet path : String) : (s.keysFor library disk snippet path).length ≤ supplyBound disk s := by
  have hlength := length_suppliedNames_le library disk
  simp only [keysFor, supplyBound, List.length_map, List.length_cons, List.length_append]
  omega

theorem supplies_still (library : String) (disk : Disk) (snippet path : String) (s : Store) :
    ((host library disk snippet).still s).Supplies (fun _ => True) (Askable path)
      (s.keysFor library disk snippet path) where
  keeps _ _ _ _ := trivial
  mem_keys name edition _ f _ _ hname hf := by
    obtain ⟨text, htext, -⟩ := Store.fileFor_eq_ok (congrArg Prod.fst hf)
    refine List.mem_map.mpr ⟨name, ?_, rfl⟩
    unfold Store.textFor at htext
    split at htext
    next hsnippet => exact hsnippet ▸ List.mem_cons_self
    · refine List.mem_cons_of_mem _ ?_
      rcases Option.or_eq_some_iff.mp htext with hkept | ⟨-, hread⟩
      · have hmem := List.mem_map_of_mem (f := (·.1)) (Texts.mem_of_get?_eq_some hkept)
        exact List.mem_cons_of_mem _ (List.mem_append_left _ hmem)
      · rcases hname with hsnippet | rfl | hfolded
        · contradiction
        · exact List.mem_cons_self
        · exact List.mem_cons_of_mem _ (List.mem_append_right _ (mem_suppliedNames hfolded hread))
  references _ _ _ _ _ _ _ _ r hr := by
    obtain ⟨relative, -, rfl⟩ := List.mem_map.mp hr
    exact .inr (.inr (Path.isFolded_resolve _ relative))

/-! ### The program of a run -/

/-- The names that the program of a run starts from: the snippet, the declaration file and the default
library. -/
def rootsOf (path : String) : List String :=
  [snippetName, path, "lib.d.ts"]

structure Assembled (library : String) (disk : Disk) (s : Store) (d : Dialect)
    (snippet path : String) (p : Program) : Prop where
  eq_mk : p = ⟨options d, [snippetName, path], p.files, Globals.bind p.files, "\n", []⟩
  /-- Every name that is needed has one file, by its key. -/
  once : ∀ name, Needed (rootsOf path) p.files name →
    p.files.countP (fun f => Text.Letter.lower f.name = Text.Letter.lower name) = 1
  /-- Every file is needed, and was read from the text for its name. -/
  handed : ∀ f ∈ p.files, Needed (rootsOf path) p.files f.name ∧
    ∃ text, s.textFor library disk snippet f.name = some text ∧ f = .read f.name text .es5
  snippet_mem : File.read snippetName snippet .es5 ∈ p.files

/-- **The program of a run is the closure of the snippet**, of the declaration file and of the default
library. -/
theorem assembled {d : Dialect} {path : String} {p : Program}
    (hcreate : (Program.create (host library disk snippet) (supplyBound disk s) (options d)
      [snippetName, path] s).1 = .ok p) : Assembled library disk s d snippet path p := by
  have hanswers := answers_still library disk snippet s
  have hstart : Program.startNames ((host library disk snippet).still s) (options d)
      [snippetName, path] = rootsOf path := rfl
  have haskable : ∀ name ∈ rootsOf path, Askable path name :=
    @askable_startNames library disk snippet path d
  have hresult : Program.create ((host library disk snippet).still s) (supplyBound disk s)
      (options d) [snippetName, path] () = (.ok p, ()) := by
    refine Prod.ext ?_ (Subsingleton.elim _ _)
    rw [← (isSteady_host library disk snippet).create_fst]
    exact hcreate
  have hcreates := (supplies_still library disk snippet path s).creates
    (s.length_keysFor_le library disk snippet path) (options d) [snippetName, path] haskable
    () trivial
  rw [hresult] at hcreates
  have hclosed := Program.closed_of_creates hanswers hcreates
  obtain ⟨l, hx, rfl⟩ := Program.exists_loads_of_creates hcreates
  -- every file is there for this host
  have hnone : l.diagnostics = [] := by
    refine List.eq_nil_iff_forall_not_mem.mpr fun diagnostic hd => ?_
    have hmissing := (hclosed.missed diagnostic hd).2.1
    exact absurd hmissing (by simp [Host.still, host])
  rw [hstart] at hx
  obtain ⟨f, hf, hname⟩ := Program.mem_files_of_loads hanswers hx rfl
  have hhanded : ∀ f ∈ l.files, Needed (rootsOf path) l.files f.name ∧
      ∃ text, s.textFor library disk snippet f.name = some text ∧ f = .read f.name text .es5 := by
    intro f hf
    obtain ⟨hneeded, -, hfile⟩ := hclosed.loaded f hf
    exact ⟨hneeded, Store.fileFor_eq_ok hfile⟩
  refine ⟨by rw [hnone]; rfl, fun name hname => ?_, hhanded, ?_⟩
  · have honce := hclosed.once name (by
      cases hname with
      | start hname => exact .inl hname
      | refer hf _ hname => exact .inr ⟨_, hf, hname⟩)
    rw [hnone, List.countP_nil, Nat.add_zero] at honce
    exact honce
  · obtain ⟨-, text, htext, hread⟩ := hhanded f hf
    rw [hname] at htext hread
    rw [Store.textFor, if_pos rfl, Option.some.injEq] at htext
    rw [htext, ← hread]
    exact hf

end Session

end LuaSnippet
