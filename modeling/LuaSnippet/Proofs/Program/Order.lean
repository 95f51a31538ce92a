import Mathlib.Logic.Relation
import LuaSnippet.Proofs.Program.Closure

/-!
# The order of the files

A file comes behind everything it refers to, as far as there is no cycle. While a file is being
loaded, so are those that lead to it: each of these reaches it through references. A name that is met
already is then missing, or loaded before, or leads back to the file that names it
(`Ordered.leave`). Main statement: `references_in_order`.
-/

namespace LuaSnippet.Program

open Script (Edition File)

variable {σ : Type} {h : Host σ}

/-! ### References among files -/

def Refers (h : Host σ) (files : List File) (f g : File) : Prop :=
  f ∈ files ∧ g ∈ files ∧ ∃ r ∈ referencesOf f.name f, h.key r = h.key g.name

/-- One file reaches another through references among some files, in one step or more. -/
abbrev Reaches (h : Host σ) (files : List File) : File → File → Prop :=
  Relation.TransGen (Refers h files)

theorem Reaches.mono {files files' : List File} {f g : File} (hreach : Reaches h files f g)
    (hfiles : ∀ f ∈ files, f ∈ files') : Reaches h files' f g := by
  have hone : ∀ a b, Refers h files a b → Refers h files' a b := fun a b ⟨ha, hb, href⟩ =>
    ⟨hfiles a ha, hfiles b hb, href⟩
  induction hreach with
  | single hrefers => exact .single (hone _ _ hrefers)
  | tail _ hrefers ih => exact ih.tail (hone _ _ hrefers)

/-- What becomes of a reference `r` of a file `f` among some files: it is missing, or a file with its
key stands before `f`, or one leads to `f`. -/
def Settled (h : Host σ) (l : Loaded) (files : List File) (f : File) (r : String) : Prop :=
  (∃ d ∈ l.diagnostics, h.key (missedName d) = h.key r) ∨
    (∃ g, [g, f].Sublist l.files ∧ h.key g.name = h.key r) ∨
    ∃ g ∈ files, h.key g.name = h.key r ∧ Reaches h files g f

theorem Settled.mono {l l' : Loaded} {files files' : List File} {f : File} {r : String}
    (hr : Settled h l files f r) (hdiagnostics : ∀ d ∈ l.diagnostics, d ∈ l'.diagnostics)
    (hloaded : l.files.Sublist l'.files) (hfiles : ∀ f ∈ files, f ∈ files') :
    Settled h l' files' f r := by
  rcases hr with ⟨d, hd, hkey⟩ | ⟨g, hbefore, hkey⟩ | ⟨g, hg, hkey, hreach⟩
  · exact .inl ⟨d, hdiagnostics d hd, hkey⟩
  · exact .inr (.inl ⟨g, hbefore.trans hloaded, hkey⟩)
  · exact .inr (.inr ⟨g, hfiles g hg, hkey, hreach.mono hfiles⟩)

/-! ### The order while files are loaded -/

/-- The innermost file that is being loaded, if there is one, refers to the name. -/
def Next (stack : List File) (name : String) : Prop :=
  ∀ f ∈ stack.head?, name ∈ referencesOf f.name f

/-- Every reference of a loaded file is settled, and of the files that are being loaded every outer one
reaches every inner one. -/
structure Ordered (h : Host σ) (stack : List File) (l : Loaded) : Prop where
  chain : stack.Pairwise fun f g => Reaches h (l.files ++ stack) g f
  settled : ∀ f ∈ l.files, ∀ r ∈ referencesOf f.name f, Settled h l (l.files ++ stack) f r

variable {stack : List File} {l : Loaded}

theorem Ordered.miss (hl : Ordered h stack l) (key name : String) (parent : Option String) :
    Ordered h stack ((l.meet key).miss name parent) where
  chain := hl.chain
  settled f hf r hr := (hl.settled f hf r hr).mono (fun _ hd => List.mem_append_left _ hd)
    (List.Sublist.refl _) fun _ hg => hg

theorem Ordered.enter (hl : Ordered h stack l) {f : File} (hf : Next stack f.name) (key : String) :
    Ordered h (f :: stack) (l.meet key) := by
  have hgrows : ∀ g ∈ l.files ++ stack, g ∈ l.files ++ f :: stack := by
    intro g hg
    rw [List.mem_append, List.mem_cons]
    rcases List.mem_append.mp hg with hg | hg
    · exact .inl hg
    · exact .inr (.inr hg)
  have hchain : stack.Pairwise fun f' g => Reaches h (l.files ++ f :: stack) g f' :=
    hl.chain.imp fun hreach => hreach.mono hgrows
  refine ⟨List.pairwise_cons.mpr ⟨fun g hg => ?_, hchain⟩, fun g hg r hr => ?_⟩
  · -- the innermost of the others refers to the file, and all others lead to that one
    obtain ⟨inner, outer, rfl⟩ := List.exists_cons_of_ne_nil (List.ne_nil_of_mem hg)
    have hlast : Refers h (l.files ++ f :: inner :: outer) inner f :=
      ⟨by simp, by simp, f.name, hf inner rfl, rfl⟩
    rcases List.mem_cons.mp hg with rfl | hg
    · exact .single hlast
    · exact .tail ((List.pairwise_cons.mp hchain).1 g hg) hlast
  · exact (hl.settled g hg r hr).mono (fun _ hd => hd) (List.Sublist.refl _) hgrows

theorem Ordered.leave {f : File} {file : String → Edition → Except Unreadable File}
    {edition : Edition} {start : List String} (hl : Ordered h (f :: stack) l)
    (account : Account h file edition start (f :: stack) l)
    (hrefs : ∀ r ∈ referencesOf f.name f, h.key r ∈ l.seen) : Ordered h stack (l.push f) := by
  have hfiles : (l.push f).files ++ stack = l.files ++ f :: stack := by
    simp [Loaded.push]
  have hloaded : l.files.Sublist (l.push f).files := List.sublist_append_left _ _
  refine ⟨?_, fun g hg r hr => ?_⟩
  · rw [hfiles]
    exact (List.pairwise_cons.mp hl.chain).2
  · rw [hfiles]
    rcases List.mem_append.mp hg with hg | hg
    · exact (hl.settled g hg r hr).mono (fun _ hd => hd) hloaded fun _ hg' => hg'
    · rw [List.mem_singleton.mp hg] at hr ⊢
      have hkey := account.perm.mem_iff.mp (hrefs r hr)
      rw [List.mem_append, List.mem_append] at hkey
      rcases hkey with hkey | hkey | hkey
      · obtain ⟨g', hg', hkey⟩ := List.mem_map.mp hkey
        refine .inr (.inl ⟨g', ?_, hkey⟩)
        exact (List.singleton_sublist.mpr hg').append (List.Sublist.refl [f])
      · obtain ⟨d, hd, hkey⟩ := List.mem_map.mp hkey
        exact .inl ⟨d, hd, hkey⟩
      · obtain ⟨g', hg', hsame⟩ := List.mem_map.mp hkey
        refine .inr (.inr ⟨g', List.mem_append_right _ hg', hsame, ?_⟩)
        rcases List.mem_cons.mp hg' with rfl | hg'
        · -- a file that refers to itself
          exact .single ⟨by simp, by simp, r, hr, hsame.symm⟩
        · exact (List.pairwise_cons.mp hl.chain).1 g' hg'

theorem keeps_order {file : String → Edition → Except Unreadable File} (hh : h.Answers file)
    (edition : Edition) (start : List String) :
    h.Keeps edition (fun stack name => Wanted start stack name ∧ Next stack name)
      fun stack l _ => Account h file edition start stack l ∧ Ordered h stack l where
  miss _ _ _ name parent := fun ⟨account, hl⟩ ⟨hname, _⟩ hnew hhas =>
    ⟨account.miss hname hnew hhas parent, hl.miss _ name parent⟩
  enter stack _ _ name f _ := fun ⟨account, hl⟩ ⟨hname, hnext⟩ hnew hhas hfetch => by
    have hf := hh.name_eq_of_fetch hfetch
    exact ⟨account.enter hname hnew hhas (hh.fetch_eq hfetch) hf, hl.enter (hf ▸ hnext) _⟩
  refers _ f _ r hr := ⟨.inr ⟨f, List.mem_cons_self, hr⟩, fun g hg => by
    rw [List.head?_cons, Option.mem_some_iff] at hg
    exact hg ▸ hr⟩
  leave _ _ _ _ := fun ⟨account, hl⟩ hrefs => ⟨account.leave hrefs, hl.leave account hrefs⟩

/-! ### The order of a program -/

/-- The files of a program stand in the order of their references. -/
structure InOrder (h : Host σ) (p : Program) : Prop where
  /-- A reference is reported missing, or the file with its key stands before the one that names it,
  or that file leads back there. -/
  settled : ∀ f ∈ p.files, ∀ r ∈ referencesOf f.name f,
    (∃ d ∈ p.diagnostics, h.key (missedName d) = h.key r) ∨
      (∃ g, [g, f].Sublist p.files ∧ h.key g.name = h.key r) ∨
      ∃ g ∈ p.files, h.key g.name = h.key r ∧ Reaches h p.files g f
  /-- Where no file leads back to itself, every file stands behind all files that it refers to. -/
  topological : (∀ f, ¬ Reaches h p.files f f) →
    ∀ f g, Refers h p.files f g → [g, f].Sublist p.files

theorem inOrder_of_creates {file : String → Edition → Except Unreadable File} (hh : h.Answers file)
    {options : Options} {roots : List String} {w w' : σ} {p : Program}
    (hp : Creates h options roots w (.ok p, w')) : InOrder h p := by
  obtain ⟨l, hx, rfl⟩ := exists_loads_of_creates hp
  have hend := (keeps_order hh options.edition (startNames h options roots)).loads hh hx []
    ⟨account_empty h file _ _, by simp, by simp [Loaded.empty]⟩
    fun _ hn => ⟨.inl hn, by simp [Next]⟩
  obtain ⟨account, hl⟩ := hend
  have hsettled := hl.settled
  rw [List.append_nil] at hsettled
  refine ⟨hsettled, fun hacyclic f g hrefers => ?_⟩
  obtain ⟨hf, hg, r, hr, hkey⟩ := hrefers
  have hkeys : (l.files.map (h.key ·.name) ++ l.diagnostics.map (h.key <| missedName ·)).Nodup := by
    have hnodup := account.perm.nodup_iff.mp account.nodup
    rwa [List.map_nil, List.append_nil] at hnodup
  obtain ⟨hfiles, -, hdisjoint⟩ := List.nodup_append.mp hkeys
  have hsame : ∀ g' ∈ l.files, h.key g'.name = h.key r → g' = g := fun g' hg' hkey' =>
    List.inj_on_of_nodup_map hfiles hg' hg (hkey'.trans hkey)
  rcases hsettled f hf r hr with ⟨d, hd, hkey'⟩ | ⟨g', hbefore, hkey'⟩ | ⟨g', hg', hkey', hreach⟩
  · -- a key is not that of a file and of a report
    exact absurd (hkey.symm.trans hkey'.symm)
      (hdisjoint _ (List.mem_map_of_mem hg) _ (List.mem_map_of_mem hd))
  · rwa [← hsame g' (hbefore.subset (by simp)) hkey']
  · rw [hsame g' hg' hkey'] at hreach
    exact absurd (hreach.tail ⟨hf, hg, r, hr, hkey⟩) (hacyclic g)

theorem creates_of_length_le {supply : Nat} {options : Options} {roots : List String} {w w' : σ}
    {p : Program} (hcreate : create h supply options roots w = (.ok p, w'))
    (hlimit : p.files.length ≤ supply) : Creates h options roots w (.ok p, w') := by
  rw [create_eq_programOf] at hcreate
  rcases hload : loadEach (load h options.edition (supply + 1) none) (startNames h options roots)
    .empty w with ⟨e | l, w₁⟩
  · rw [hload] at hcreate
    simp [programOf] at hcreate
  · rw [hload] at hcreate
    refine ⟨_, ?_, hcreate⟩
    simp only [programOf, Prod.mk.injEq, Except.ok.injEq] at hcreate
    obtain ⟨rfl, rfl⟩ := hcreate
    have hfiles : l.files.length ≤ supply := hlimit
    refine loads_of_length_lt (supply + 1) none _ .empty w l w₁ hload ?_
    change l.files.length < 0 + (supply + 1)
    omega

/-- **Files come behind what they refer to.** Of a program that was created through a host whose
answers depend on the name alone, with a limit that was not reached, every reference is missing, or
leads to a file further in front, or lies on a cycle. -/
theorem references_in_order {file : String → Edition → Except Unreadable File} (hh : h.Answers file)
    {supply : Nat} {options : Options} {roots : List String} {w w' : σ} {p : Program}
    (hcreate : create h supply options roots w = (.ok p, w')) (hlimit : p.files.length ≤ supply) :
    InOrder h p :=
  inOrder_of_creates hh (creates_of_length_le hcreate hlimit)

/-- The files of a diamond: one refers to two others and to one that is not there, and both of them
to a last one. -/
def diamondFile (name : String) (edition : Edition) : Except Unreadable File :=
  if name = "top" then .ok ⟨"top", "", edition, [], ["right", "left", "gone"], []⟩
  else if name = "left" then .ok ⟨"left", "", edition, [], ["bottom"], []⟩
  else if name = "right" then .ok ⟨"right", "", edition, [], ["bottom"], []⟩
  else if name = "bottom" then .ok ⟨"bottom", "", edition, [], [], []⟩
  else .error ⟨name, name⟩

def diamond : Host Unit where
  has name := name ≠ "gone"
  canonical name := name
  caseSensitive := true
  directory := ""
  newLine := "\n"
  library := libraryName
  fetch name edition w := (diamondFile name edition, w)

/-- A diamond is loaded from its bottom to its top, although the top is asked for first. -/
theorem diamond_in_order :
    ∃ p, create diamond 4 ⟨.es5, .lua53, true, true⟩ ["top", "left"] () = (.ok p, ()) ∧
      p.files.map (·.name) = ["bottom", "right", "left", "top"] ∧ InOrder diamond p := by
  have hanswers : diamond.Answers diamondFile := by
    refine ⟨fun _ _ _ => rfl, fun name edition f hf => ?_⟩
    unfold diamondFile at hf
    repeat' split at hf
    all_goals
      simp only [reduceCtorEq, Except.ok.injEq] at hf
      try exact hf ▸ Eq.symm ‹name = _›
  have hcreate : ∃ p, create diamond 4 ⟨.es5, .lua53, true, true⟩ ["top", "left"] () = (.ok p, ()) ∧
      p.files.map (·.name) = ["bottom", "right", "left", "top"] :=
    ⟨_, rfl, by decide +kernel⟩
  obtain ⟨p, hcreate, hnames⟩ := hcreate
  refine ⟨p, hcreate, hnames, references_in_order hanswers hcreate ?_⟩
  have hlength := congrArg List.length hnames
  rw [List.length_map] at hlength
  exact Nat.le_of_eq hlength

end LuaSnippet.Program
