import LuaSnippet.Proofs.Program.Depth
import LuaSnippet.Proofs.Program.Simulation

/-!
# Loading without a limit

The rules of loading can be said without any limit on how deep references go: `Loads` derives what
loading some names one after the other comes to. There is at most one such result, and for a host
that supplies files for finitely many keys there is one, which is what `loadEach` computes with a
limit beyond them (`Host.Supplies.loads`). A limit that was not reached is no limit either: if no more
files were loaded than the limit allows in depth, the result can be derived (`loads_of_length_lt`).

What holds all along is shown by an invariant of the files that are loaded and of those whose
references are being loaded, the innermost first (`Host.Keeps.loads`).
-/

namespace LuaSnippet.Program

open Script (Edition File)

variable {σ : Type} {h : Host σ} {edition : Edition}

/-- What loading some names for `parent`, one after the other, comes to. -/
inductive Loads (h : Host σ) (edition : Edition) :
    Option String → List String → Loaded → σ → Loading σ → Prop where
  | done {parent l w} : Loads h edition parent [] l w (.ok l, w)
  | met {parent name names l w x} (hmet : h.key name ∈ l.seen)
      (hrest : Loads h edition parent names l w x) : Loads h edition parent (name :: names) l w x
  | missing {parent name names l w x} (hnew : h.key name ∉ l.seen) (hhas : h.has name = false)
      (hrest : Loads h edition parent names ((l.meet (h.key name)).miss name parent) w x) :
      Loads h edition parent (name :: names) l w x
  | unreadable {parent name names l w e w'} (hnew : h.key name ∉ l.seen) (hhas : h.has name = true)
      (hfetch : h.fetch name edition w = (.error e, w')) :
      Loads h edition parent (name :: names) l w (.error e, w')
  | broken {parent name names l w f w' e w''} (hnew : h.key name ∉ l.seen)
      (hhas : h.has name = true) (hfetch : h.fetch name edition w = (.ok f, w'))
      (hrefs : Loads h edition (some name) (referencesOf name f) (l.meet (h.key name)) w'
        (.error e, w'')) :
      Loads h edition parent (name :: names) l w (.error e, w'')
  | loaded {parent name names l w f w' l' w'' x} (hnew : h.key name ∉ l.seen)
      (hhas : h.has name = true) (hfetch : h.fetch name edition w = (.ok f, w'))
      (hrefs : Loads h edition (some name) (referencesOf name f) (l.meet (h.key name)) w'
        (.ok l', w''))
      (hrest : Loads h edition parent names (l'.push f) w'' x) :
      Loads h edition parent (name :: names) l w x

namespace Loads

variable {parent : Option String} {names : List String} {l : Loaded} {w : σ} {x y : Loading σ}

theorem unique (hx : Loads h edition parent names l w x) :
    ∀ {y}, Loads h edition parent names l w y → x = y := by
  induction hx with
  | done =>
    intro y hy
    cases hy
    rfl
  | met hmet _ ih =>
    intro y hy
    cases hy with
    | met _ hrest => exact ih hrest
    | missing hnew => exact absurd hmet hnew
    | unreadable hnew => exact absurd hmet hnew
    | broken hnew => exact absurd hmet hnew
    | loaded hnew => exact absurd hmet hnew
  | missing hnew hhas _ ih =>
    intro y hy
    cases hy with
    | met hmet => exact absurd hmet hnew
    | missing _ _ hrest => exact ih hrest
    | unreadable _ hhas' => simp [hhas] at hhas'
    | broken _ hhas' => simp [hhas] at hhas'
    | loaded _ hhas' => simp [hhas] at hhas'
  | unreadable hnew hhas hfetch =>
    intro y hy
    cases hy with
    | met hmet => exact absurd hmet hnew
    | missing _ hhas' => simp [hhas] at hhas'
    | unreadable _ _ hfetch' => simpa [hfetch] using hfetch'
    | broken _ _ hfetch' => simp [hfetch] at hfetch'
    | loaded _ _ hfetch' => simp [hfetch] at hfetch'
  | broken hnew hhas hfetch _ ih =>
    intro y hy
    cases hy with
    | met hmet => exact absurd hmet hnew
    | missing _ hhas' => simp [hhas] at hhas'
    | unreadable _ _ hfetch' => simp [hfetch] at hfetch'
    | broken _ _ hfetch' hrefs =>
      obtain ⟨rfl, rfl⟩ : _ = _ ∧ _ = _ := by simpa [hfetch] using hfetch'
      exact ih hrefs
    | loaded _ _ hfetch' hrefs =>
      obtain ⟨rfl, rfl⟩ : _ = _ ∧ _ = _ := by simpa [hfetch] using hfetch'
      simpa using ih hrefs
  | loaded hnew hhas hfetch _ _ ihrefs ihrest =>
    intro y hy
    cases hy with
    | met hmet => exact absurd hmet hnew
    | missing _ hhas' => simp [hhas] at hhas'
    | unreadable _ _ hfetch' => simp [hfetch] at hfetch'
    | broken _ _ hfetch' hrefs =>
      obtain ⟨rfl, rfl⟩ : _ = _ ∧ _ = _ := by simpa [hfetch] using hfetch'
      simpa using ihrefs hrefs
    | loaded _ _ hfetch' hrefs hrest =>
      obtain ⟨rfl, rfl⟩ : _ = _ ∧ _ = _ := by simpa [hfetch] using hfetch'
      obtain ⟨rfl, rfl⟩ : _ = _ ∧ _ = _ := by simpa using ihrefs hrefs
      exact ihrest hrest

theorem met_of_ok (hx : Loads h edition parent names l w x) :
    ∀ {l' w'}, x = (.ok l', w') →
      (∀ key ∈ l.seen, key ∈ l'.seen) ∧ ∀ name ∈ names, h.key name ∈ l'.seen := by
  induction hx with
  | done =>
    rintro l' w' ⟨⟩
    exact ⟨fun key hkey => hkey, by simp⟩
  | met hmet _ ih =>
    intro l' w' hok
    obtain ⟨hseen, hnames⟩ := ih hok
    refine ⟨hseen, fun n hn => ?_⟩
    rcases List.mem_cons.mp hn with rfl | hn
    · exact hseen _ hmet
    · exact hnames n hn
  | missing _ _ _ ih =>
    intro l' w' hok
    obtain ⟨hseen, hnames⟩ := ih hok
    refine ⟨fun key hkey => hseen key (List.mem_cons_of_mem _ hkey), fun n hn => ?_⟩
    rcases List.mem_cons.mp hn with rfl | hn
    · exact hseen _ List.mem_cons_self
    · exact hnames n hn
  | unreadable => rintro l' w' ⟨⟩
  | broken => rintro l' w' ⟨⟩
  | loaded _ _ _ _ _ ihrefs ihrest =>
    intro l' w' hok
    obtain ⟨hrefs, -⟩ := ihrefs rfl
    obtain ⟨hseen, hnames⟩ := ihrest hok
    refine ⟨fun key hkey => hseen key (hrefs key (List.mem_cons_of_mem _ hkey)), fun n hn => ?_⟩
    rcases List.mem_cons.mp hn with rfl | hn
    · exact hseen _ (hrefs _ List.mem_cons_self)
    · exact hnames n hn

end Loads

/-! ### From the limit to none -/

theorem loads_cons {parent : Option String} {depth : Nat} {name : String} {names : List String}
    {l : Loaded} {w : σ} {x : Loading σ}
    (hload : loadEach (load h edition (depth + 1) parent) (name :: names) l w = x)
    (hrefs : ∀ f w', h.key name ∉ l.seen → h.has name = true →
      h.fetch name edition w = (.ok f, w') →
      Loads h edition (some name) (referencesOf name f) (l.meet (h.key name)) w'
        (loadEach (load h edition depth (some name)) (referencesOf name f)
          (l.meet (h.key name)) w'))
    (hrest : ∀ l' w', load h edition (depth + 1) parent name l w = (.ok l', w') →
      Loads h edition parent names l' w' (loadEach (load h edition (depth + 1) parent) names l' w')) :
    Loads h edition parent (name :: names) l w x := by
  subst hload
  unfold loadEach
  by_cases hmet : h.key name ∈ l.seen
  · have hone : load h edition (depth + 1) parent name l w = (.ok l, w) := by
      simp [load, hmet]
    rw [hone]
    exact .met hmet (hrest l w hone)
  · cases hhas : h.has name with
    | false =>
      have hone : load h edition (depth + 1) parent name l w =
          (.ok ((l.meet (h.key name)).miss name parent), w) := by
        simp [load, hmet, hhas]
      rw [hone]
      exact .missing hmet hhas (hrest _ w hone)
    | true =>
      rcases hfetch : h.fetch name edition w with ⟨e | f, w'⟩
      · have hone : load h edition (depth + 1) parent name l w = (.error e, w') := by
          simp [load, hmet, hhas, hfetch]
        rw [hone]
        exact .unreadable hmet hhas hfetch
      · have hinner := hrefs f w' hmet hhas hfetch
        rcases hl : loadEach (load h edition depth (some name)) (referencesOf name f)
          (l.meet (h.key name)) w' with ⟨e | l', w''⟩
        · have hone : load h edition (depth + 1) parent name l w = (.error e, w'') := by
            simp [load, hmet, hhas, hfetch, hl]
          rw [hl] at hinner
          rw [hone]
          exact .broken hmet hhas hfetch hinner
        · have hone : load h edition (depth + 1) parent name l w = (.ok (l'.push f), w'') := by
            simp [load, hmet, hhas, hfetch, hl]
          rw [hl] at hinner
          rw [hone]
          exact .loaded hmet hhas hfetch hinner (hrest _ w'' hone)

theorem Host.Supplies.loads {P : σ → Prop} {N : String → Prop} {keys : List String}
    (hs : h.Supplies P N keys) (edition : Edition) (depth : Nat) :
    ∀ parent names l w, P w → (∀ name ∈ names, N name) → unseen keys l < depth →
      Loads h edition parent names l w (loadEach (load h edition depth parent) names l w) := by
  induction depth with
  | zero => intro parent names l w _ _ hlt; omega
  | succ depth ih =>
    intro parent names
    induction names with
    | nil => intro l w _ _ _; exact .done
    | cons name names ihnames =>
      intro l w hP hN hlt
      have hname : N name := hN name List.mem_cons_self
      refine loads_cons rfl (fun f w' hnew _ hfetch => ?_) (fun l' w' hone => ?_)
      · have hP' : P w' := by
          have hkeeps := hs.keeps name edition w hP
          rwa [hfetch] at hkeeps
        have hless := unseen_meet_lt (hs.mem_keys name edition w f w' hP hname hfetch)
          (by simpa using hnew)
        exact ih (some name) _ _ w' hP' (hs.references name edition w f w' hP hname hfetch)
          (by omega)
      · obtain ⟨hP', hlt'⟩ := (hs.invariant (depth + 1)).load edition (depth + 1) parent name l w l'
          w' ⟨hP, hlt⟩ hone
        exact ihnames l' w' hP' (fun n hn => hN n (List.mem_cons_of_mem _ hn)) hlt'

theorem invariant_length_le (n : Nat) : h.Invariant fun l _ => n ≤ l.files.length where
  meet _ _ _ hl := hl
  push l _ f hl := by
    rw [Loaded.push, List.length_append]
    omega
  miss _ _ _ _ hl := hl
  fetch _ _ _ _ _ _ hl _ := hl

theorem length_le_of_loadEach {depth : Nat} {parent : Option String} {names : List String}
    {l l' : Loaded} {w w' : σ}
    (hload : loadEach (load h edition depth parent) names l w = (.ok l', w')) :
    l.files.length ≤ l'.files.length :=
  loadEach_preserves ((invariant_length_le l.files.length).load edition depth parent) names l w l' w'
    (Nat.le_refl _) hload

/-- A limit was not reached if fewer files were loaded than it would take to reach it: every level
of references is that of another file, and all of these are loaded in the end. -/
theorem loads_of_length_lt (depth : Nat) : ∀ parent names l w l' w',
    loadEach (load h edition depth parent) names l w = (.ok l', w') →
      l'.files.length < l.files.length + depth →
      Loads h edition parent names l w (.ok l', w') := by
  induction depth with
  | zero =>
    intro parent names l w l' w' hload hlt
    have hle := length_le_of_loadEach hload
    omega
  | succ depth ih =>
    intro parent names
    induction names with
    | nil =>
      intro l w l' w' hload _
      rw [← hload]
      exact .done
    | cons name names ihnames =>
      intro l w l' w' hload hlt
      -- a first name that fails would fail the whole
      obtain ⟨l₁, w₁, hone, hrest⟩ : ∃ l₁ w₁,
          load h edition (depth + 1) parent name l w = (.ok l₁, w₁) ∧
          loadEach (load h edition (depth + 1) parent) names l₁ w₁ = (.ok l', w') := by
        unfold loadEach at hload
        rcases hone : load h edition (depth + 1) parent name l w with ⟨e | l₁, w₁⟩
        · simp [hone] at hload
        · exact ⟨l₁, w₁, rfl, by rwa [hone] at hload⟩
      have hle := length_le_of_loadEach hrest
      have hle₁ := (invariant_length_le l.files.length).load edition (depth + 1) parent name l w l₁
        w₁ (Nat.le_refl _) hone
      refine loads_cons hload (fun f w₂ hnew hhas hfetch => ?_) (fun l₂ w₂ hone₂ => ?_)
      · rcases hrefs : loadEach (load h edition depth (some name)) (referencesOf name f)
          (l.meet (h.key name)) w₂ with ⟨e | l₂, w₃⟩
        · simp [load, hnew, hhas, hfetch, hrefs] at hone
        · have hpush : l₁ = l₂.push f := by
            simp only [load, hhas, hfetch, hrefs, List.contains_iff_mem, hnew, if_false, if_true,
              Prod.mk.injEq, Except.ok.injEq] at hone
            exact hone.1.symm
          refine ih _ _ _ _ _ _ hrefs ?_
          have hlen : l₁.files.length = l₂.files.length + 1 := by simp [hpush, Loaded.push]
          change l₂.files.length < l.files.length + depth
          omega
      · rw [hone, Prod.mk.injEq, Except.ok.injEq] at hone₂
        obtain ⟨rfl, rfl⟩ := hone₂
        rw [hrest]
        exact ihnames l₁ w₁ l' w' hrest (by omega)

/-! ### What loading keeps all along -/

/-- A host whose answers depend on the name alone: `file` says what it hands out. -/
structure Host.Answers (h : Host σ) (file : String → Edition → Except Unreadable File) : Prop where
  fetch_fst : ∀ name edition w, (h.fetch name edition w).1 = file name edition
  /-- A file goes by the name under which it was asked for. -/
  name_eq : ∀ name edition f, file name edition = .ok f → f.name = name

/-- What holds of the files whose references are being loaded, the innermost first, of everything
loaded and of the host, if each operation of loading keeps it. The names that are loaded for the
innermost of these files are all of a kind `C`. -/
structure Host.Keeps (h : Host σ) (edition : Edition) (C : List File → String → Prop)
    (Q : List File → Loaded → σ → Prop) : Prop where
  miss : ∀ stack l w name parent, Q stack l w → C stack name → h.key name ∉ l.seen →
    h.has name = false → Q stack ((l.meet (h.key name)).miss name parent) w
  enter : ∀ stack l w name f w', Q stack l w → C stack name → h.key name ∉ l.seen →
    h.has name = true → h.fetch name edition w = (.ok f, w') → Q (f :: stack) (l.meet (h.key name)) w'
  refers : ∀ stack f, C stack f.name → ∀ r ∈ referencesOf f.name f, C (f :: stack) r
  leave : ∀ stack l w f, Q (f :: stack) l w → (∀ r ∈ referencesOf f.name f, h.key r ∈ l.seen) →
    Q stack (l.push f) w

/-- What an invariant says about the end of loading: a loading that fails does so at a name that was
not met, at a point where the invariant holds. -/
def Host.EndsWith (h : Host σ) (edition : Edition) (Q : List File → Loaded → σ → Prop)
    (stack : List File) : Loading σ → Prop
  | (.ok l, w) => Q stack l w
  | (.error e, w') => ∃ stack l name w, Q stack l w ∧ h.key name ∉ l.seen ∧
      h.fetch name edition w = (.error e, w')

theorem Host.Answers.fetch_eq {file : String → Edition → Except Unreadable File}
    (hh : h.Answers file) {name : String} {w w' : σ} {x : Except Unreadable File}
    (hfetch : h.fetch name edition w = (x, w')) : file name edition = x := by
  rw [← hh.fetch_fst name edition w, hfetch]

theorem Host.Answers.name_eq_of_fetch {file : String → Edition → Except Unreadable File}
    (hh : h.Answers file) {name : String} {w w' : σ} {f : File}
    (hfetch : h.fetch name edition w = (.ok f, w')) : f.name = name :=
  hh.name_eq name edition f (hh.fetch_eq hfetch)

theorem Host.Keeps.loads {file : String → Edition → Except Unreadable File}
    {C : List File → String → Prop} {Q : List File → Loaded → σ → Prop}
    (hQ : h.Keeps edition C Q) (hh : h.Answers file) {parent : Option String}
    {names : List String} {l : Loaded} {w : σ} {x : Loading σ}
    (hx : Loads h edition parent names l w x) :
    ∀ stack, Q stack l w → (∀ name ∈ names, C stack name) → h.EndsWith edition Q stack x := by
  induction hx with
  | done => intro stack hl _; exact hl
  | met _ _ ih =>
    intro stack hl hnames
    exact ih stack hl fun n hn => hnames n (List.mem_cons_of_mem _ hn)
  | missing hnew hhas _ ih =>
    intro stack hl hnames
    exact ih stack (hQ.miss _ _ _ _ _ hl (hnames _ List.mem_cons_self) hnew hhas)
      fun n hn => hnames n (List.mem_cons_of_mem _ hn)
  | unreadable hnew _ hfetch =>
    intro stack hl _
    exact ⟨stack, _, _, _, hl, hnew, hfetch⟩
  | broken hnew hhas hfetch _ ih =>
    intro stack hl hnames
    have hC := hnames _ List.mem_cons_self
    have hname := hh.name_eq_of_fetch hfetch
    -- a failure is the same whatever was being loaded around it
    refine ih (_ :: stack) (hQ.enter _ _ _ _ _ _ hl hC hnew hhas hfetch) ?_
    rw [← hname] at hC ⊢
    exact hQ.refers stack _ hC
  | loaded hnew hhas hfetch hrefs _ ihrefs ihrest =>
    intro stack hl hnames
    have hC := hnames _ List.mem_cons_self
    have hname := hh.name_eq_of_fetch hfetch
    have hinner := ihrefs _ (hQ.enter _ _ _ _ _ _ hl hC hnew hhas hfetch) (by
      rw [← hname] at hC ⊢
      exact hQ.refers stack _ hC)
    refine ihrest stack (hQ.leave _ _ _ _ hinner ?_)
      fun n hn => hnames n (List.mem_cons_of_mem _ hn)
    rw [hname]
    exact (hrefs.met_of_ok rfl).2

end LuaSnippet.Program
