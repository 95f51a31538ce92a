import LuaSnippet.Program.Basic

/-!
# The depth of references

Every level of references takes another key, so that loading through a host that supplies files for
finitely many keys goes only so deep. With any limit beyond the keys that were not met yet, loading
comes to the same.
-/

namespace LuaSnippet.Program

open Script (Edition File)

variable {σ : Type} {h : Host σ}

/-! ### What loading keeps -/

theorem loadEach_preserves {Q : Loaded → σ → Prop} {f : String → Loaded → σ → Loading σ}
    (step : ∀ name l w l' w', Q l w → f name l w = (.ok l', w') → Q l' w') (names : List String) :
    ∀ l w l' w', Q l w → loadEach f names l w = (.ok l', w') → Q l' w' := by
  induction names with
  | nil =>
    intro l w l' w' hQ hload
    rw [loadEach, Prod.mk.injEq, Except.ok.injEq] at hload
    obtain ⟨rfl, rfl⟩ := hload
    exact hQ
  | cons name names ih =>
    intro l w l' w' hQ hload
    unfold loadEach at hload
    rcases hf : f name l w with ⟨_ | l₁, w₁⟩
    · rw [hf] at hload
      simp at hload
    · rw [hf] at hload
      exact ih l₁ w₁ l' w' (step name l w l₁ w₁ hQ hf) hload

/-- What holds of everything loaded and of the host, if each operation of loading keeps it. A file
that cannot be handed out ends the loading, so that only the others count. -/
structure Host.Invariant (h : Host σ) (Q : Loaded → σ → Prop) : Prop where
  meet : ∀ l w key, Q l w → Q (l.meet key) w
  push : ∀ l w f, Q l w → Q (l.push f) w
  miss : ∀ l w name parent, Q l w → Q (l.miss name parent) w
  fetch : ∀ l w name edition f w', Q l w → h.fetch name edition w = (.ok f, w') → Q l w'

theorem Host.Invariant.load {Q : Loaded → σ → Prop} (hQ : h.Invariant Q) (edition : Edition)
    (depth : Nat) : ∀ parent name l w l' w', Q l w →
      load h edition depth parent name l w = (.ok l', w') → Q l' w' := by
  induction depth with
  | zero =>
    intro parent name l w l' w' hl hload
    rw [Program.load, Prod.mk.injEq, Except.ok.injEq] at hload
    obtain ⟨rfl, rfl⟩ := hload
    exact hl
  | succ depth ih =>
    intro parent name l w l' w' hl hload
    unfold Program.load at hload
    split at hload
    · rw [Prod.mk.injEq, Except.ok.injEq] at hload
      obtain ⟨rfl, rfl⟩ := hload
      exact hl
    · split at hload
      · rcases hf : h.fetch name edition w with ⟨_ | f, w₁⟩
        · rw [hf] at hload
          simp at hload
        · rw [hf] at hload
          simp only at hload
          rcases hrefs : loadEach (Program.load h edition depth (some name)) (referencesOf name f)
            (l.meet (h.key name)) w₁ with ⟨_ | l₂, w₂⟩
          · rw [hrefs] at hload
            simp at hload
          · rw [hrefs] at hload
            simp only [Prod.mk.injEq, Except.ok.injEq] at hload
            obtain ⟨rfl, rfl⟩ := hload
            exact hQ.push l₂ w₂ f (loadEach_preserves (ih (some name)) _ _ _ _ _
              (hQ.meet l w₁ _ (hQ.fetch l w name edition f w₁ hl hf)) hrefs)
      · rw [Prod.mk.injEq, Except.ok.injEq] at hload
        obtain ⟨rfl, rfl⟩ := hload
        exact hQ.miss _ w name parent (hQ.meet l w _ hl)

theorem Host.Invariant.create {Q : Loaded → σ → Prop} (hQ : h.Invariant Q) {supply : Nat}
    {options : Options} {roots : List String} {w w' : σ} {p : Program} (hw : Q .empty w)
    (hcreate : create h supply options roots w = (.ok p, w')) : ∃ l, Q l w' := by
  unfold Program.create at hcreate
  rcases hload : loadEach (Program.load h options.edition (supply + 1) none)
    (startNames h options roots) .empty w with ⟨_ | l, w₁⟩
  · rw [hload] at hcreate
    simp at hcreate
  · rw [hload] at hcreate
    simp only [Prod.mk.injEq] at hcreate
    rw [← hcreate.2]
    exact ⟨l, loadEach_preserves (hQ.load options.edition (supply + 1) none) _ _ _ _ _ hw hload⟩

/-! ### Keys that are not met yet -/

/-- How many of some keys are not met yet. -/
def unseen (keys : List String) (l : Loaded) : Nat :=
  keys.countP fun key => !l.seen.contains key

theorem unseen_le_length (keys : List String) (l : Loaded) : unseen keys l ≤ keys.length :=
  List.countP_le_length

theorem unseen_meet_le (keys : List String) (l : Loaded) (key : String) :
    unseen keys (l.meet key) ≤ unseen keys l := by
  refine List.countP_mono_left fun k _ hk => ?_
  simp only [Loaded.meet, List.contains_cons, Bool.not_or, Bool.and_eq_true] at hk
  exact hk.2

theorem unseen_meet_lt {keys : List String} {l : Loaded} {key : String} (hkey : key ∈ keys)
    (hnew : ¬ l.seen.contains key = true) : unseen keys (l.meet key) < unseen keys l := by
  induction keys with
  | nil => simp at hkey
  | cons k keys ih =>
    have hle := unseen_meet_le keys l key
    unfold unseen at ih hle ⊢
    rw [List.countP_cons, List.countP_cons]
    by_cases hk : k = key
    · rw [hk, if_neg (by simp [Loaded.meet]), if_pos (by simpa using hnew)]
      omega
    · have hlt := ih ((List.mem_cons.mp hkey).resolve_left (Ne.symm hk))
      have hhead : (l.meet key).seen.contains k = l.seen.contains k := by
        simp [Loaded.meet, hk]
      rw [hhead]
      omega

/-! ### Limits that are no limits -/

/-- While its state is one of `P`, a host supplies files for some keys only, as far as it is asked
for names of `N`, and these refer to no others. -/
structure Host.Supplies (h : Host σ) (P : σ → Prop) (N : String → Prop) (keys : List String) :
    Prop where
  keeps : ∀ name edition w, P w → P (h.fetch name edition w).2
  mem_keys : ∀ name edition w f w', P w → N name → h.fetch name edition w = (.ok f, w') →
    h.key name ∈ keys
  references : ∀ name edition w f w', P w → N name → h.fetch name edition w = (.ok f, w') →
    ∀ r ∈ referencesOf name f, N r

theorem loadEach_congr {Q : Loaded → σ → Prop} {N : String → Prop}
    {f g : String → Loaded → σ → Loading σ} (heq : ∀ name l w, N name → Q l w →
      f name l w = g name l w)
    (step : ∀ name l w l' w', Q l w → g name l w = (.ok l', w') → Q l' w') (names : List String)
    (hnames : ∀ name ∈ names, N name) :
    ∀ l w, Q l w → loadEach f names l w = loadEach g names l w := by
  induction names with
  | nil => intro l w _; rfl
  | cons name names ih =>
    intro l w hQ
    unfold loadEach
    rw [heq name l w (hnames name List.mem_cons_self) hQ]
    rcases hg : g name l w with ⟨_ | l₁, w₁⟩
    · rfl
    · exact ih (fun n hn => hnames n (List.mem_cons_of_mem _ hn)) l₁ w₁ (step name l w l₁ w₁ hQ hg)

variable {P : σ → Prop} {N : String → Prop} {keys : List String}

theorem Host.Supplies.invariant (hs : h.Supplies P N keys) (bound : Nat) :
    h.Invariant fun l w => P w ∧ unseen keys l < bound where
  meet l _ key := fun ⟨hP, hlt⟩ =>
    ⟨hP, Nat.lt_of_le_of_lt (unseen_meet_le keys l key) hlt⟩
  push _ _ _ hl := hl
  miss _ _ _ _ hl := hl
  fetch _ w name edition f w' := fun ⟨hP, hlt⟩ hf => ⟨by
    have hkeeps := hs.keeps name edition w hP
    rwa [hf] at hkeeps, hlt⟩

theorem Host.Supplies.load_eq_of_lt (hs : h.Supplies P N keys) (edition : Edition) (m n : Nat) :
    ∀ parent name l w, P w → N name → unseen keys l < m → unseen keys l < n →
      load h edition m parent name l w = load h edition n parent name l w := by
  induction m generalizing n with
  | zero => intro parent name l w _ _ hm _; omega
  | succ m ih =>
    intro parent name l w hP hN hm hn
    obtain ⟨n, rfl⟩ : ∃ n', n = n' + 1 := ⟨n - 1, by omega⟩
    unfold load
    by_cases hseen : l.seen.contains (h.key name) = true
    · rw [if_pos hseen, if_pos hseen]
    · rw [if_neg hseen, if_neg hseen]
      rcases hf : h.fetch name edition w with ⟨_ | f, w₁⟩
      · rfl
      · have hP₁ : P w₁ := by
          have := hs.keeps name edition w hP
          rwa [hf] at this
        have hlt := unseen_meet_lt (hs.mem_keys name edition w f w₁ hP hN hf) hseen
        have hrefs := loadEach_congr (Q := fun l w => P w ∧ unseen keys l < min m n)
          (f := load h edition m (some name)) (g := load h edition n (some name))
          (fun name' l' w' hN' hl' => ih n (some name) name' l' w' hl'.1 hN' (by omega) (by omega))
          ((hs.invariant (min m n)).load edition n (some name)) (referencesOf name f)
          (hs.references name edition w f w₁ hP hN hf) (l.meet (h.key name)) w₁ ⟨hP₁, by omega⟩
        simp only [hrefs]

/-- **Enough is enough**: two programs that are created through the same host are the same for any
two numbers of keys that are at least what the host supplies. -/
theorem Host.Supplies.create_eq (hs : h.Supplies P N keys) {m n : Nat} (hm : keys.length ≤ m)
    (hn : keys.length ≤ n) (options : Options) (roots : List String)
    (hroots : ∀ name ∈ startNames h options roots, N name) {w : σ} (hw : P w) :
    create h m options roots w = create h n options roots w := by
  have hload := loadEach_congr (Q := fun l w => P w ∧ unseen keys l < keys.length + 1)
    (f := load h options.edition (m + 1) none) (g := load h options.edition (n + 1) none)
    (fun name l w hN hl => hs.load_eq_of_lt options.edition (m + 1) (n + 1) none name l w hl.1 hN
      (by omega) (by omega))
    ((hs.invariant (keys.length + 1)).load options.edition (n + 1) none)
    (startNames h options roots) hroots .empty w
    ⟨hw, Nat.lt_succ_of_le (unseen_le_length keys .empty)⟩
  unfold create
  rw [hload]

end LuaSnippet.Program
