import Mathlib.Data.List.Nodup
import LuaSnippet.Proofs.Program.Unlimited

/-!
# The closure of the references

A program is made of the files that it starts from and of all that these refer to, directly or not.
While it is loaded every key that was met is that of a loaded file, of a report of a missing file or
of a file whose references are being loaded, and of one of these only (`Account`). In the end no file
is being loaded any more, so that each name that is needed belongs to one loaded file or to one report
(`create_closed`). The host is asked at most once for a key, and not at all once it fails.
-/

namespace LuaSnippet.Program

open Script (Edition File)

variable {σ : Type} {h : Host σ} {edition : Edition}

/-! ### Reports of missing files -/

/-- The name that a report of a missing file gives: what stands between `File '` and `' not found.` -/
def missedName (d : Diagnostic) : String :=
  String.ofList ((d.text.toList.drop 6).take (d.text.toList.length - 18))

@[simp]
theorem missedName_notFound (name : String) (parent : Option String) :
    missedName (Loaded.notFound name parent) = name := by
  have htext : (Loaded.notFound name parent).text = "File '" ++ name ++ "' not found." := by
    cases parent <;> rfl
  unfold missedName
  rw [htext, String.toList_append, String.toList_append, List.append_assoc]
  rw [List.drop_append_of_le_length (by decide)]
  simp

/-! ### Creating without a limit -/

def programOf (h : Host σ) (options : Options) (roots : List String) :
    Loading σ → Except Unreadable Program × σ
  | (.error e, w) => (.error e, w)
  | (.ok l, w) =>
    (.ok ⟨options, roots, l.files, Globals.bind l.files, h.newLine, l.diagnostics⟩, w)

/-- Creating a program comes to `x`, however deep references go. -/
def Creates (h : Host σ) (options : Options) (roots : List String) (w : σ)
    (x : Except Unreadable Program × σ) : Prop :=
  ∃ y, Loads h options.edition none (startNames h options roots) .empty w y ∧
    programOf h options roots y = x

theorem create_eq_programOf (supply : Nat) (options : Options) (roots : List String) (w : σ) :
    create h supply options roots w = programOf h options roots
      (loadEach (load h options.edition (supply + 1) none) (startNames h options roots) .empty w) := by
  unfold create
  rcases loadEach (load h options.edition (supply + 1) none) (startNames h options roots) .empty w
    with ⟨_ | _, _⟩ <;> rfl

theorem Creates.unique {options : Options} {roots : List String} {w : σ}
    {x y : Except Unreadable Program × σ} (hx : Creates h options roots w x)
    (hy : Creates h options roots w y) : x = y := by
  obtain ⟨a, ha, rfl⟩ := hx
  obtain ⟨b, hb, rfl⟩ := hy
  rw [ha.unique hb]

theorem exists_loads_of_creates {options : Options} {roots : List String} {w w' : σ} {p : Program}
    (hp : Creates h options roots w (.ok p, w')) :
    ∃ l, Loads h options.edition none (startNames h options roots) .empty w (.ok l, w') ∧
      p = ⟨options, roots, l.files, Globals.bind l.files, h.newLine, l.diagnostics⟩ := by
  obtain ⟨⟨e | l, w₁⟩, hy, heq⟩ := hp
  · simp [programOf] at heq
  · simp only [programOf, Prod.mk.injEq, Except.ok.injEq] at heq
    obtain ⟨rfl, rfl⟩ := heq
    exact ⟨l, hy, rfl⟩

variable {file : String → Edition → Except Unreadable File} {keys : List String}

/-- Creating a program through a host that supplies files for some keys only comes to an end. -/
theorem Host.Supplies.creates {P : σ → Prop} {N : String → Prop} (hs : h.Supplies P N keys)
    {supply : Nat} (hsupply : keys.length ≤ supply) (options : Options) (roots : List String)
    (hroots : ∀ name ∈ startNames h options roots, N name) (w : σ) (hw : P w) :
    Creates h options roots w (create h supply options roots w) := by
  refine ⟨_, ?_, (create_eq_programOf supply options roots w).symm⟩
  have hlength := unseen_le_length keys .empty
  exact hs.loads options.edition (supply + 1) none _ .empty w hw hroots (by omega)

theorem Host.Answers.supplies (hh : h.Answers file)
    (hkeys : ∀ name edition f, file name edition = .ok f → h.key name ∈ keys) :
    h.Supplies (fun _ => True) (fun _ => True) keys where
  keeps _ _ _ _ := trivial
  mem_keys name edition _ f _ _ _ hfetch := hkeys name edition f (hh.fetch_eq hfetch)
  references _ _ _ _ _ _ _ _ _ _ := trivial

theorem Host.Answers.creates (hh : h.Answers file)
    (hkeys : ∀ name edition f, file name edition = .ok f → h.key name ∈ keys) {supply : Nat}
    (hsupply : keys.length ≤ supply) (options : Options) (roots : List String) (w : σ) :
    Creates h options roots w (create h supply options roots w) :=
  (hh.supplies hkeys).creates hsupply options roots (fun _ _ => trivial) w trivial

/-! ### The account of what was met -/

/-- The names that a program is made of: those that it starts from, and those that one of its files
refers to if that file is needed itself. -/
inductive Needed (start : List String) (files : List File) : String → Prop where
  | start {name : String} (hname : name ∈ start) : Needed start files name
  | refer {f : File} {name : String} (hf : f ∈ files) (hneeded : Needed start files f.name)
      (hname : name ∈ referencesOf f.name f) : Needed start files name

theorem Needed.mono {start : List String} {files files' : List File} {name : String}
    (hname : Needed start files name) (hfiles : ∀ f ∈ files, f ∈ files') :
    Needed start files' name := by
  induction hname with
  | start hname => exact .start hname
  | refer hf _ hname ih => exact .refer (hfiles _ hf) ih hname

/-- The name is one that loading starts from, or the innermost file that is being loaded refers to
it. -/
def Wanted (start : List String) (stack : List File) (name : String) : Prop :=
  name ∈ start ∨ ∃ f ∈ stack, name ∈ referencesOf f.name f

/-- What was loaded, with the files whose references are being loaded, accounts for every key that
was met. -/
structure Account (h : Host σ) (file : String → Edition → Except Unreadable File)
    (edition : Edition) (start : List String) (stack : List File) (l : Loaded) : Prop where
  perm : l.seen.Perm (l.files.map (h.key ·.name) ++
    (l.diagnostics.map (h.key <| missedName ·) ++ stack.map (h.key ·.name)))
  nodup : l.seen.Nodup
  handed : ∀ f ∈ l.files ++ stack, h.has f.name = true ∧ file f.name edition = .ok f
  needed : ∀ f ∈ l.files ++ stack, Needed start (l.files ++ stack) f.name
  closed : ∀ f ∈ l.files, ∀ r ∈ referencesOf f.name f, h.key r ∈ l.seen
  missed : ∀ d ∈ l.diagnostics, h.has (missedName d) = false ∧
    (∃ parent, d = Loaded.notFound (missedName d) parent) ∧
    Needed start (l.files ++ stack) (missedName d)

theorem account_empty (h : Host σ) (file : String → Edition → Except Unreadable File)
    (edition : Edition) (start : List String) : Account h file edition start [] .empty where
  perm := List.Perm.refl _
  nodup := List.nodup_nil
  handed := by simp [Loaded.empty]
  needed := by simp [Loaded.empty]
  closed := by simp [Loaded.empty]
  missed := by simp [Loaded.empty]

variable {start : List String} {stack : List File} {l : Loaded} {name : String}

theorem Account.needed_of_wanted (hl : Account h file edition start stack l)
    (hname : Wanted start stack name) : Needed start (l.files ++ stack) name := by
  rcases hname with hstart | ⟨f, hf, href⟩
  · exact .start hstart
  · have hmem : f ∈ l.files ++ stack := List.mem_append_right _ hf
    exact .refer hmem (hl.needed f hmem) href

theorem Account.miss (hl : Account h file edition start stack l) (hname : Wanted start stack name)
    (hnew : h.key name ∉ l.seen) (hhas : h.has name = false) (parent : Option String) :
    Account h file edition start stack ((l.meet (h.key name)).miss name parent) where
  perm := by
    simp only [Loaded.meet, Loaded.miss, List.map_append, List.map_cons, List.map_nil,
      missedName_notFound]
    refine (hl.perm.cons _).trans ?_
    rw [List.append_assoc, ← List.append_assoc, ← List.append_assoc]
    exact List.perm_middle.symm
  nodup := List.nodup_cons.mpr ⟨hnew, hl.nodup⟩
  handed := hl.handed
  needed := hl.needed
  closed f hf r hr := List.mem_cons_of_mem _ (hl.closed f hf r hr)
  missed d hd := by
    rcases List.mem_append.mp hd with hold | hnew
    · exact hl.missed d hold
    · rw [List.mem_singleton.mp hnew, missedName_notFound]
      exact ⟨hhas, ⟨parent, rfl⟩, hl.needed_of_wanted hname⟩

theorem Account.enter (hl : Account h file edition start stack l)
    (hname : Wanted start stack name) (hnew : h.key name ∉ l.seen) (hhas : h.has name = true)
    {f : File} (hfile : file name edition = .ok f) (hf : f.name = name) :
    Account h file edition start (f :: stack) (l.meet (h.key name)) := by
  have hgrows : ∀ g ∈ l.files ++ stack, g ∈ l.files ++ f :: stack := by
    intro g hg
    rcases List.mem_append.mp hg with hg | hg
    · exact List.mem_append_left _ hg
    · exact List.mem_append_right _ (List.mem_cons_of_mem _ hg)
  have hcases : ∀ g ∈ l.files ++ f :: stack, g = f ∨ g ∈ l.files ++ stack := by
    intro g hg
    rcases List.mem_append.mp hg with hg | hg
    · exact .inr (List.mem_append_left _ hg)
    · rcases List.mem_cons.mp hg with rfl | hg
      · exact .inl rfl
      · exact .inr (List.mem_append_right _ hg)
  refine ⟨?_, List.nodup_cons.mpr ⟨hnew, hl.nodup⟩, ?_, ?_, ?_, ?_⟩
  · simp only [Loaded.meet, List.map_cons, hf]
    refine (hl.perm.cons _).trans ?_
    rw [← List.append_assoc, ← List.append_assoc]
    exact List.perm_middle.symm
  · intro g hg
    rcases hcases g hg with rfl | hg
    · rw [hf]
      exact ⟨hhas, hfile⟩
    · exact hl.handed g hg
  · intro g hg
    rcases hcases g hg with rfl | hg
    · rw [hf]
      exact (hl.needed_of_wanted hname).mono hgrows
    · exact (hl.needed g hg).mono hgrows
  · intro g hg r hr
    exact List.mem_cons_of_mem _ (hl.closed g hg r hr)
  · intro d hd
    obtain ⟨hhas, hreport, hneeded⟩ := hl.missed d hd
    exact ⟨hhas, hreport, hneeded.mono hgrows⟩

theorem Account.leave {f : File} (hl : Account h file edition start (f :: stack) l)
    (hrefs : ∀ r ∈ referencesOf f.name f, h.key r ∈ l.seen) :
    Account h file edition start stack (l.push f) := by
  have hfiles : (l.push f).files ++ stack = l.files ++ f :: stack := by
    simp [Loaded.push]
  refine ⟨?_, hl.nodup, ?_, ?_, ?_, ?_⟩
  · refine hl.perm.trans ?_
    simp only [Loaded.push, List.map_append, List.map_cons, List.map_nil, List.append_assoc,
      List.singleton_append]
    rw [List.perm_append_left_iff]
    exact List.perm_middle
  · rw [hfiles]
    exact hl.handed
  · rw [hfiles]
    exact hl.needed
  · intro g hg r hr
    rcases List.mem_append.mp hg with hg | hg
    · exact hl.closed g hg r hr
    · rw [List.mem_singleton.mp hg] at hr
      exact hrefs r hr
  · rw [hfiles]
    exact hl.missed

theorem keeps_account (hh : h.Answers file) (edition : Edition) (start : List String) :
    h.Keeps edition (Wanted start) fun stack l _ => Account h file edition start stack l where
  miss _ _ _ _ parent hl hname hnew hhas := hl.miss hname hnew hhas parent
  enter _ _ _ _ _ _ hl hname hnew hhas hfetch :=
    hl.enter hname hnew hhas (hh.fetch_eq hfetch) (hh.name_eq_of_fetch hfetch)
  refers _ _ _ _ hr := .inr ⟨_, List.mem_cons_self, hr⟩
  leave _ _ _ _ hl hrefs := hl.leave hrefs

theorem account_of_loads (hh : h.Answers file) {w w' : σ}
    (hx : Loads h edition none start .empty w (.ok l, w')) : Account h file edition start [] l :=
  (keeps_account hh edition start).loads hh hx [] (account_empty h file edition start)
    fun _ hn => .inl hn

/-! ### What the host is asked for -/

/-- The names that a host was asked for, as it noted them: each was met, no two have one key, and a
file was handed out for each. -/
structure Noted (h : Host σ) (file : String → Edition → Except Unreadable File) (edition : Edition)
    (l : Loaded) (names : List String) : Prop where
  nodup : (names.map h.key).Nodup
  met : ∀ name ∈ names, h.key name ∈ l.seen
  handed : ∀ name ∈ names, ∃ f, file name edition = .ok f

theorem Noted.nodup_snoc {names : List String} (hn : Noted h file edition l names)
    (hnew : h.key name ∉ l.seen) : ((names ++ [name]).map h.key).Nodup := by
  rw [List.map_append, List.nodup_append]
  refine ⟨hn.nodup, by simp, ?_⟩
  intro a ha b hb hab
  obtain ⟨n, hmem, rfl⟩ := List.mem_map.mp ha
  rw [List.map_singleton, List.mem_singleton] at hb
  exact hnew (hb ▸ hab ▸ hn.met n hmem)

theorem Host.Answers.noting (hh : h.Answers file) : h.noting.Answers file where
  fetch_fst name edition w := hh.fetch_fst name edition w.1
  name_eq := hh.name_eq

theorem noting_fetch {e : Except Unreadable File} {w w' : σ × List String}
    (hfetch : h.noting.fetch name edition w = (e, w')) : w'.2 = w.2 ++ [name] := by
  simp only [Host.noting, Prod.mk.injEq] at hfetch
  rw [← hfetch.2]

theorem keeps_noted (hh : h.Answers file) (edition : Edition) :
    h.noting.Keeps edition (fun _ _ => True) fun _ l w => Noted h file edition l w.2 where
  miss _ _ _ _ _ hn _ _ _ :=
    ⟨hn.nodup, fun n hmem => List.mem_cons_of_mem _ (hn.met n hmem), hn.handed⟩
  enter _ l w name f w' hn _ hnew _ hfetch := by
    rw [noting_fetch hfetch]
    refine ⟨hn.nodup_snoc hnew, fun n hmem => ?_, fun n hmem => ?_⟩
    · rcases List.mem_append.mp hmem with hmem | hmem
      · exact List.mem_cons_of_mem _ (hn.met n hmem)
      · rw [List.mem_singleton.mp hmem]
        exact List.mem_cons_self
    · rcases List.mem_append.mp hmem with hmem | hmem
      · exact hn.handed n hmem
      · rw [List.mem_singleton.mp hmem]
        exact ⟨f, hh.noting.fetch_eq hfetch⟩
  refers _ _ _ _ _ := trivial
  leave _ _ _ _ hn _ := ⟨hn.nodup, hn.met, hn.handed⟩

theorem create_noting_fst (supply : Nat) (options : Options) (roots : List String) (w : σ) :
    (create h.noting supply options roots (w, [])).1 = (create h supply options roots w).1 := by
  have hagree : h.Agrees h.noting fun v n => v = n.1 :=
    ⟨rfl, rfl, rfl, rfl, rfl, rfl, by
      rintro name edition v n rfl
      exact ⟨rfl, rfl⟩⟩
  exact (create_sim hagree supply options roots (w := w) (v := (w, [])) rfl).1.symm

theorem asked_cases (hh : h.Answers file)
    (hkeys : ∀ name edition f, file name edition = .ok f → h.key name ∈ keys) {supply : Nat}
    (hsupply : keys.length ≤ supply) (options : Options) (roots : List String) (w : σ) :
    ((asked h supply options roots w).map h.key).Nodup ∧
      match (create h supply options roots w).1 with
      | .ok _ => ∀ name ∈ asked h supply options roots w, ∃ f, file name options.edition = .ok f
      | .error e => ∃ before name, asked h supply options roots w = before ++ [name] ∧
          file name options.edition = .error e ∧
          ∀ name ∈ before, ∃ f, file name options.edition = .ok f := by
  have hlength := unseen_le_length keys .empty
  have hx := (hh.noting.supplies hkeys).loads options.edition (supply + 1) none
    (startNames h.noting options roots) .empty (w, []) trivial (fun _ _ => trivial) (by omega)
  have hend := (keeps_noted hh options.edition).loads hh.noting hx [] ⟨by simp, by simp, by simp⟩
    fun _ _ => trivial
  rw [← create_noting_fst, asked, create_eq_programOf]
  generalize loadEach (load h.noting options.edition (supply + 1) none) (startNames h.noting options roots)
    .empty (w, []) = y at hend
  rcases y with ⟨e | l, w'⟩
  · obtain ⟨_, l, name, w₁, hn, hnew, hfetch⟩ := hend
    have hw : w'.2 = w₁.2 ++ [name] := noting_fetch hfetch
    simp only [programOf, hw]
    exact ⟨hn.nodup_snoc hnew, w₁.2, name, rfl, hh.noting.fetch_eq hfetch, hn.handed⟩
  · exact ⟨hend.nodup, hend.handed⟩

/-! ### The closure -/

/-- What a program is made of, loaded through a host that hands out `file`. -/
structure Closed (h : Host σ) (file : String → Edition → Except Unreadable File) (p : Program) :
    Prop where
  /-- The key of each name that the program starts from or a file refers to is that of one loaded file
  or of one report, and not of two. -/
  once : ∀ name, name ∈ startNames h p.options p.roots ∨
      (∃ f ∈ p.files, name ∈ referencesOf f.name f) →
    p.files.countP (fun f => h.key f.name = h.key name) +
      p.diagnostics.countP (fun d => h.key (missedName d) = h.key name) = 1
  loaded : ∀ f ∈ p.files, Needed (startNames h p.options p.roots) p.files f.name ∧
    h.has f.name = true ∧ file f.name p.options.edition = .ok f
  missed : ∀ d ∈ p.diagnostics, Needed (startNames h p.options p.roots) p.files (missedName d) ∧
    h.has (missedName d) = false ∧ ∃ parent, d = Loaded.notFound (missedName d) parent

theorem countP_key {α : Type} (xs : List α) (f : α → String) (key : String) :
    xs.countP (fun x => f x = key) = (xs.map f).count key := by
  rw [List.count, List.countP_map]
  rfl

theorem closed_of_creates (hh : h.Answers file) {options : Options} {roots : List String}
    {w w' : σ} {p : Program} (hp : Creates h options roots w (.ok p, w')) : Closed h file p := by
  obtain ⟨l, hx, rfl⟩ := exists_loads_of_creates hp
  have account := account_of_loads hh hx
  have hfiles : l.files ++ [] = l.files := List.append_nil _
  refine ⟨fun name hname => ?_, fun f hf => ?_, fun d hd => ?_⟩
  · have hmet : h.key name ∈ l.seen := by
      rcases hname with hstart | ⟨f, hf, href⟩
      · exact (hx.met_of_ok rfl).2 name hstart
      · exact account.closed f hf name href
    have hcount := account.perm.count_eq (h.key name)
    rw [List.count_eq_one_of_mem account.nodup hmet, List.map_nil, List.append_nil,
      List.count_append] at hcount
    rw [countP_key, countP_key]
    exact hcount.symm
  · have hneeded := account.needed f (hfiles.symm ▸ hf)
    rw [hfiles] at hneeded
    exact ⟨hneeded, account.handed f (hfiles.symm ▸ hf)⟩
  · obtain ⟨hhas, hreport, hneeded⟩ := account.missed d hd
    rw [hfiles] at hneeded
    exact ⟨hneeded, hhas, hreport⟩

/-- How a program is created through a host that hands out `file`, which can be asked for it. -/
structure ClosesOnce (h : Host σ) (file : String → Edition → Except Unreadable File) (supply : Nat)
    (options : Options) (roots : List String) (w : σ) : Prop where
  /-- Creating ends even without a limit, and comes to the same. -/
  ends : ∀ x, Creates h options roots w x ↔ create h supply options roots w = x
  /-- The host is asked at most once for a key. -/
  asks_once : ((asked h supply options roots w).map h.key).Nodup
  closed : ∀ p w', create h supply options roots w = (.ok p, w') → Closed h file p
  /-- The first failure of the host is that of the program, and the last thing the host is asked
  for. -/
  fails : ∀ before name after e, asked h supply options roots w = before ++ name :: after →
    file name options.edition = .error e →
    after = [] ∧ (create h supply options roots w).1 = .error e
  /-- A program fails only if the host does. -/
  blames : ∀ e, (create h supply options roots w).1 = .error e →
    ∃ name ∈ asked h supply options roots w, file name options.edition = .error e

/-- **The closure is loaded once.** A program that is created through a host whose answers depend on
the name alone, and that can supply files for the keys of a finite list only, is made of all names
that it starts from and that its files refer to, each of them once, whatever refers to what; unless the
host fails for one of them. -/
theorem create_closed (hh : h.Answers file)
    (hkeys : ∀ name edition f, file name edition = .ok f → h.key name ∈ keys) {supply : Nat}
    (hsupply : keys.length ≤ supply) (options : Options) (roots : List String) (w : σ) :
    ClosesOnce h file supply options roots w := by
  have hcreates := hh.creates hkeys hsupply options roots w
  obtain ⟨hnodup, hcases⟩ := asked_cases hh hkeys hsupply options roots w
  refine ⟨fun x => ⟨fun hx => hcreates.unique hx, fun hx => hx ▸ hcreates⟩, hnodup,
    fun p w' hp => closed_of_creates hh (hp ▸ hcreates), ?_, ?_⟩
  · intro before name after e hasked hfile
    cases hresult : (create h supply options roots w).1 with
    | ok p =>
      -- a file was handed out for every name then
      rw [hresult] at hcases
      obtain ⟨f, hf⟩ := hcases name (by simp [hasked])
      rw [hfile] at hf
      simp at hf
    | error e' =>
      rw [hresult] at hcases
      obtain ⟨before', name', hlast, herror, hbefore⟩ := hcases
      rw [hlast] at hasked
      rcases List.eq_nil_or_concat after with rfl | ⟨after', last, rfl⟩
      · obtain ⟨-, hname⟩ := List.append_inj' hasked rfl
        rw [List.cons.injEq] at hname
        rw [hname.1, hfile, Except.error.injEq] at herror
        exact ⟨rfl, by rw [herror]⟩
      · -- a name before the last one was handed out
        rw [List.concat_eq_append, ← List.cons_append, ← List.append_assoc] at hasked
        obtain ⟨hinit, -⟩ := List.append_inj' hasked rfl
        obtain ⟨f, hf⟩ := hbefore name (by simp [hinit])
        rw [hfile] at hf
        simp at hf
  · intro e hresult
    rw [hresult] at hcases
    obtain ⟨before, name, hasked, herror, -⟩ := hcases
    exact ⟨name, by simp [hasked], herror⟩

/-- The files of a ring: two that refer to each other, one of them to itself and to one that is not
there. -/
def ringFile (name : String) (edition : Edition) : Except Unreadable File :=
  if name = "a" then .ok ⟨"a", "", edition, [], ["b", "./A", "gone"], []⟩
  else if name = "b" then .ok ⟨"b", "", edition, [], ["a"], []⟩
  else .error ⟨name, name⟩

/-- A host of the files of the ring, which does not mind case. -/
def ring : Host Unit where
  has name := name ≠ "gone"
  canonical name := name
  caseSensitive := false
  directory := ""
  newLine := "\n"
  library := libraryName
  fetch name edition w := (ringFile name edition, w)

/-- A ring is loaded once, under whatever names its files are given. -/
theorem ring_closed :
    ring.Answers ringFile ∧
      (∀ name edition f, ringFile name edition = .ok f → ring.key name ∈ ["a", "b"]) ∧
      asked ring 2 ⟨.es5, .lua53, true, true⟩ ["b", "A", "gone"] () = ["b", "a"] ∧
      ClosesOnce ring ringFile 2 ⟨.es5, .lua53, true, true⟩ ["b", "A", "gone"] () := by
  have hanswers : ring.Answers ringFile := by
    refine ⟨fun _ _ _ => rfl, fun name edition f hf => ?_⟩
    unfold ringFile at hf
    split at hf
    · simpa [← Except.ok.inj hf] using Eq.symm ‹name = "a"›
    · split at hf
      · simpa [← Except.ok.inj hf] using Eq.symm ‹name = "b"›
      · simp at hf
  have hkeys : ∀ name edition f, ringFile name edition = .ok f → ring.key name ∈ ["a", "b"] := by
    intro name edition f hf
    unfold ringFile at hf
    split at hf
    next ha => rw [ha]; decide +kernel
    · split at hf
      next hb => rw [hb]; decide +kernel
      · simp at hf
  exact ⟨hanswers, hkeys, by decide +kernel, create_closed hanswers hkeys (by decide) _ _ _⟩

end LuaSnippet.Program
