import LuaSnippet.Program.Basic

/-!
# Loading through two hosts

Two hosts may keep different states and still hand out the same files. Loading through them then
comes to the same, and the states stay related. The state of a host can also be noted beside the
names that it was asked for, which changes nothing in what is loaded.
-/

namespace LuaSnippet.Program

open Script (Edition File)

variable {σ τ α : Type}

/-- The step relation: two results agree, and the states behind them are related. -/
def Alike (R : σ → τ → Prop) (x : α × σ) (y : α × τ) : Prop :=
  x.1 = y.1 ∧ R x.2 y.2

theorem Alike.exists_eq {R : σ → τ → Prop} {x : α × σ} {y : α × τ} (hxy : Alike R x y) :
    ∃ a w v, x = (a, w) ∧ y = (a, v) ∧ R w v := by
  obtain ⟨a, w⟩ := x
  obtain ⟨b, v⟩ := y
  obtain ⟨rfl, hR⟩ := hxy
  exact ⟨a, w, v, rfl, rfl, hR⟩

/-- Two hosts that say the same about names and hand out the same files from related states. -/
structure Host.Agrees (h : Host σ) (k : Host τ) (R : σ → τ → Prop) : Prop where
  has : h.has = k.has
  canonical : h.canonical = k.canonical
  caseSensitive : h.caseSensitive = k.caseSensitive
  directory : h.directory = k.directory
  newLine : h.newLine = k.newLine
  library : h.library = k.library
  fetch : ∀ name edition w v, R w v → Alike R (h.fetch name edition w) (k.fetch name edition v)

variable {h : Host σ} {k : Host τ} {R : σ → τ → Prop}

theorem Host.Agrees.key_eq (agree : h.Agrees k R) (name : String) : h.key name = k.key name := by
  unfold Host.key
  rw [agree.canonical, agree.caseSensitive]

theorem loadEach_sim {f : String → Loaded → σ → Loading σ} {g : String → Loaded → τ → Loading τ}
    (step : ∀ name l w v, R w v → Alike R (f name l w) (g name l v)) (names : List String) :
    ∀ l w v, R w v → Alike R (loadEach f names l w) (loadEach g names l v) := by
  induction names with
  | nil => intro l w v hR; exact ⟨rfl, hR⟩
  | cons name names ih =>
    intro l w v hR
    obtain ⟨x, w', v', hf, hg, hR'⟩ := (step name l w v hR).exists_eq
    unfold loadEach
    rw [hf, hg]
    cases x with
    | ok l' => exact ih l' w' v' hR'
    | error e => exact ⟨rfl, hR'⟩

theorem load_sim (agree : h.Agrees k R) (edition : Edition) (depth : Nat) :
    ∀ parent name l w v, R w v →
      Alike R (load h edition depth parent name l w) (load k edition depth parent name l v) := by
  induction depth with
  | zero => intro parent name l w v hR; exact ⟨rfl, hR⟩
  | succ depth ih =>
    intro parent name l w v hR
    unfold load
    rw [agree.key_eq name, agree.has]
    by_cases hseen : l.seen.contains (k.key name) = true
    · rw [if_pos hseen, if_pos hseen]
      exact ⟨rfl, hR⟩
    · rw [if_neg hseen, if_neg hseen]
      by_cases hhas : k.has name = true
      · rw [if_pos hhas, if_pos hhas]
        obtain ⟨x, w', v', hf, hg, hR'⟩ := (agree.fetch name edition w v hR).exists_eq
        rw [hf, hg]
        cases x with
        | error e => exact ⟨rfl, hR'⟩
        | ok f =>
          obtain ⟨x, w'', v'', hf', hg', hR''⟩ := (loadEach_sim (ih (some name))
            (referencesOf name f) (l.meet (k.key name)) w' v' hR').exists_eq
          simp only [hf', hg']
          cases x with
          | ok l' => exact ⟨rfl, hR''⟩
          | error e => exact ⟨rfl, hR''⟩
      · rw [if_neg hhas, if_neg hhas]
        exact ⟨rfl, hR⟩

/-- Programs that are created through agreeing hosts from related states are the same, or fail the
same way, and leave related states. -/
theorem create_sim (agree : h.Agrees k R) (supply : Nat) (options : Options) (roots : List String)
    {w : σ} {v : τ} (hR : R w v) :
    Alike R (create h supply options roots w) (create k supply options roots v) := by
  have hstart : startNames h options roots = startNames k options roots := by
    unfold startNames
    rw [agree.directory, agree.library]
  obtain ⟨x, w', v', hf, hg, hR'⟩ := (loadEach_sim
    (load_sim agree options.edition (supply + 1) none) (startNames k options roots)
    .empty w v hR).exists_eq
  unfold create
  rw [hstart, hf, hg, agree.newLine]
  cases x with
  | ok l => exact ⟨rfl, hR'⟩
  | error e => exact ⟨rfl, hR'⟩

/-! ### Noting what is asked for -/

/-- A host that notes the names it is asked to hand out. -/
def Host.noting (h : Host σ) : Host (σ × List String) where
  has := h.has
  canonical := h.canonical
  caseSensitive := h.caseSensitive
  directory := h.directory
  newLine := h.newLine
  library := h.library
  fetch name edition w :=
    ((h.fetch name edition w.1).1, ((h.fetch name edition w.1).2, w.2 ++ [name]))

/-- A host from the state `w` and its noting counterpart agree, and the state is always what the
noted names have made of `w`. -/
theorem Host.agrees_noting (h : Host σ) {ask : σ → String → σ} (w : σ)
    (hask : ∀ name edition v, (h.fetch name edition v).2 = ask v name) :
    h.Agrees h.noting fun v n => v = n.1 ∧ n.1 = n.2.foldl ask w where
  has := rfl
  canonical := rfl
  caseSensitive := rfl
  directory := rfl
  newLine := rfl
  library := rfl
  fetch := by
    rintro name edition v ⟨v', names⟩ ⟨rfl, hv⟩
    refine ⟨rfl, rfl, ?_⟩
    simp only [noting, hask, List.foldl_append, List.foldl_cons, List.foldl_nil]
    rw [← hv]

/-- The names that creating a program asks its host for, in order. -/
def asked (h : Host σ) (supply : Nat) (options : Options) (roots : List String) (w : σ) :
    List String :=
  (create h.noting supply options roots (w, [])).2.2

theorem create_snd_eq (h : Host σ) {ask : σ → String → σ}
    (hask : ∀ name edition v, (h.fetch name edition v).2 = ask v name) (supply : Nat)
    (options : Options) (roots : List String) (w : σ) :
    (create h supply options roots w).2 = (asked h supply options roots w).foldl ask w := by
  have hsim := create_sim (h.agrees_noting w hask) supply options roots
    (w := w) (v := (w, [])) ⟨rfl, rfl⟩
  obtain ⟨-, hw, hfold⟩ := hsim
  rw [hw, hfold]
  rfl

end LuaSnippet.Program
