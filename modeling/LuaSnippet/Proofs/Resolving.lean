import LuaSnippet.Proofs.Folding
import Mathlib.Data.List.Basic
import Mathlib.Data.List.Induction
import Mathlib.Logic.Relation

/-!
# What a reference resolves to

Read as a text, a path has a normal form: each climb cancels the nearest name before it that is not
cancelled yet, and what remains are climbs that found no name, and behind them names. At the root
the remaining climbs lead nowhere; elsewhere each of them leads one directory further up.

Folding cancels every name as it should, but it does not tell a climb that it kept from a name: the
next climb that finds no name cancels the kept one instead. So of the remaining climbs a folded path
has none if their number is even, and one if it is odd, at the root as well as elsewhere.
-/

namespace LuaSnippet.Path

/-! ### The text of a path read back -/

theorem stepOf_stepText {s : Step} (hs : s.Proper) : stepOf (stepText s) = some s := by
  cases s with
  | up => rfl
  | down name => exact hs.2

theorem Step.Proper.stepText_ne_nil {s : Step} (hs : s.Proper) : stepText s ≠ [] := by
  intro hnil
  have hread := stepOf_stepText hs
  rw [hnil] at hread
  simp [stepOf] at hread

theorem filterMap_stepOf_parts {steps : List Step} (hsteps : ∀ s ∈ steps, s.Proper) :
    (parts (stepsText steps)).filterMap stepOf = steps := by
  by_cases hne : steps = []
  · rw [hne]
    rfl
  · rw [parts_stepsText hne hsteps, List.filterMap_map]
    refine (List.filterMap_congr (g := some) fun s hs => ?_).trans List.filterMap_some
    exact stepOf_stepText (hsteps s hs)

theorem head?_stepsText_ne {steps : List Step} (hsteps : ∀ s ∈ steps, s.Proper) :
    (stepsText steps).head? ≠ some '/' := by
  have hstart : ∀ s ∈ steps, ∀ rest, (stepText s ++ rest).head? ≠ some '/' := by
    intro s hs rest hslash
    obtain ⟨c, cs, htext⟩ := List.exists_cons_of_ne_nil (hsteps s hs).stepText_ne_nil
    rw [htext, List.cons_append, List.head?_cons] at hslash
    refine (hsteps s hs).slash_notMem ?_
    rw [htext, Option.some.inj hslash]
    exact List.mem_cons_self
  match steps with
  | [] => simp [stepsText]
  | [s] =>
    have := hstart s (by simp) []
    rwa [List.append_nil] at this
  | s :: t :: rest => exact hstart s (by simp) _

theorem ofString_toString {p : Path} (hp : ∀ s ∈ p.steps, s.Proper) : ofString p.toString = p := by
  obtain ⟨absolute, steps⟩ := p
  unfold ofString Path.toString
  rw [String.toList_ofList]
  cases absolute with
  | false =>
    simp [filterMap_stepOf_parts hp, head?_stepsText_ne hp]
  | true =>
    simp [parts, stepOf, filterMap_stepOf_parts hp]

theorem toString_inj {p q : Path} (hp : ∀ s ∈ p.steps, s.Proper) (hq : ∀ s ∈ q.steps, s.Proper) :
    p.toString = q.toString ↔ p = q := by
  refine ⟨fun h => ?_, congrArg _⟩
  rw [← ofString_toString hp, h, ofString_toString hq]

theorem proper_of_mem_append {p q : Path} (hp : ∀ s ∈ p.steps, s.Proper)
    (hq : ∀ s ∈ q.steps, s.Proper) : ∀ s ∈ (p.append q).steps, s.Proper := by
  unfold append
  split
  · exact hq
  · intro s hs
    rcases List.mem_append.mp hs with hs | hs
    · exact hp s hs
    · exact hq s hs

/-! ### Cancelling -/

/-- One climb cancels the name right before it. -/
inductive Cancels : List Step → List Step → Prop
  | climb (before : List Step) (name : String) (behind : List Step) :
    Cancels (before ++ .down name :: .up :: behind) (before ++ behind)

/-- What can remain of a path when no climb finds a name any more: climbs, and names behind them. -/
structure Remains where
  absolute : Bool
  climbs : Nat
  names : List String
deriving DecidableEq, Repr

namespace Remains

def stepsOf (climbs : Nat) (names : List String) : List Step :=
  List.replicate climbs .up ++ names.map .down

/-- What remains of a path after cancelling as long as a climb finds a name. -/
def Of (r : Remains) (p : Path) : Prop :=
  r.absolute = p.absolute ∧ Relation.ReflTransGen Cancels p.steps (stepsOf r.climbs r.names)

/-- The normal form of a path: climbs that found no name are kept at the front, and dropped at the
root. -/
def normal (r : Remains) : Path :=
  ⟨r.absolute, stepsOf (if r.absolute then 0 else r.climbs) r.names⟩

/-- The folded path: of the climbs that found no name every second one cancels the one before it. -/
def folded (r : Remains) : Path :=
  ⟨r.absolute, stepsOf (r.climbs % 2) r.names⟩

def add (r : Remains) : Step → Remains
  | .down name => { r with names := r.names ++ [name] }
  | .up =>
    if r.names = [] then { r with climbs := r.climbs + 1 }
    else { r with names := r.names.dropLast }

end Remains

def remains (p : Path) : Remains :=
  p.steps.foldl Remains.add ⟨p.absolute, 0, []⟩

namespace Remains

theorem absolute_add (r : Remains) (s : Step) : (r.add s).absolute = r.absolute := by
  cases s with
  | up =>
    by_cases hnil : r.names = []
    · rw [add, if_pos hnil]
    · rw [add, if_neg hnil]
  | down name => rfl

theorem absolute_foldl_add (steps : List Step) (r : Remains) :
    (steps.foldl add r).absolute = r.absolute := by
  induction steps generalizing r with
  | nil => rfl
  | cons s steps ih => rw [List.foldl_cons, ih, absolute_add]

theorem stepsOf_concat (climbs : Nat) (names : List String) (name : String) :
    stepsOf climbs (names ++ [name]) = stepsOf climbs names ++ [.down name] := by
  simp [stepsOf]

/-! What is kept so far is the invariant: a step is added to it as folding adds it to the folded
steps, and as cancelling goes on with the steps that remain. -/

theorem foldStep_folded (r : Remains) (s : Step) :
    foldStep r.folded.steps s = (r.add s).folded.steps := by
  obtain ⟨absolute, climbs, names⟩ := r
  cases s with
  | down name => exact (stepsOf_concat _ names name).symm
  | up =>
    rcases List.eq_nil_or_concat' names with rfl | ⟨names, name, rfl⟩
    · -- No name is left: the fold looks at the climb it has kept, if there is one.
      rcases Nat.mod_two_eq_zero_or_one climbs with h | h
      · have hnext : (climbs + 1) % 2 = 1 := by omega
        simp [folded, add, foldStep, stepsOf, h, hnext]
      · have hnext : (climbs + 1) % 2 = 0 := by omega
        simp [folded, add, foldStep, stepsOf, h, hnext]
    · simp [folded, add, foldStep, stepsOf_concat]

theorem foldl_foldStep (steps : List Step) (r : Remains) :
    steps.foldl foldStep r.folded.steps = (steps.foldl add r).folded.steps := by
  induction steps generalizing r with
  | nil => rfl
  | cons s steps ih => rw [List.foldl_cons, List.foldl_cons, foldStep_folded, ih]

theorem cancels_add (r : Remains) (s : Step) (behind : List Step) :
    Relation.ReflTransGen Cancels (stepsOf r.climbs r.names ++ s :: behind)
      (stepsOf (r.add s).climbs (r.add s).names ++ behind) := by
  obtain ⟨absolute, climbs, names⟩ := r
  cases s with
  | down name =>
    simp only [add, stepsOf_concat, List.append_assoc, List.singleton_append]
    exact .refl
  | up =>
    rcases List.eq_nil_or_concat' names with rfl | ⟨names, name, rfl⟩
    · have hsteps : stepsOf climbs [] ++ Step.up :: behind = stepsOf (climbs + 1) [] ++ behind := by
        simp [stepsOf, List.replicate_succ']
      rw [hsteps]
      exact .refl
    · simp only [add, stepsOf_concat, List.append_assoc, List.singleton_append]
      simpa using Relation.ReflTransGen.single (Cancels.climb (stepsOf climbs names) name behind)

theorem cancels_foldl_add (steps : List Step) (r : Remains) :
    Relation.ReflTransGen Cancels (stepsOf r.climbs r.names ++ steps)
      (stepsOf (steps.foldl add r).climbs (steps.foldl add r).names) := by
  induction steps generalizing r with
  | nil =>
    rw [List.append_nil]
    exact .refl
  | cons s steps ih => exact (cancels_add r s steps).trans (ih (r.add s))

/-! ### Cancelling has one end -/

theorem add_up_add_down (r : Remains) (name : String) : (r.add (.down name)).add .up = r := by
  simp [add]

theorem foldl_add_of_cancels {steps steps' : List Step}
    (h : Relation.ReflTransGen Cancels steps steps') (r : Remains) :
    steps.foldl add r = steps'.foldl add r := by
  induction h with
  | refl => rfl
  | tail _ hstep ih =>
    obtain ⟨before, name, behind⟩ := hstep
    rw [ih, List.foldl_append, List.foldl_append, List.foldl_cons, List.foldl_cons, add_up_add_down]

theorem foldl_add_stepsOf (absolute : Bool) (climbs : Nat) (names : List String) :
    (stepsOf climbs names).foldl add ⟨absolute, 0, []⟩ = ⟨absolute, climbs, names⟩ := by
  have hclimbs : (List.replicate climbs Step.up).foldl add ⟨absolute, 0, []⟩
      = ⟨absolute, climbs, []⟩ := by
    induction climbs with
    | zero => rfl
    | succ climbs ih =>
      rw [List.replicate_succ', List.foldl_append, ih]
      rfl
  rw [stepsOf, List.foldl_append, hclimbs]
  induction names using List.reverseRecOn with
  | nil => rfl
  | append_singleton names name ih =>
    rw [List.map_append, List.foldl_append, ih]
    rfl

theorem stepsOf_inj {climbs climbs' : Nat} {names names' : List String} :
    stepsOf climbs names = stepsOf climbs' names' ↔ climbs = climbs' ∧ names = names' := by
  refine ⟨fun h => ?_, fun ⟨hclimbs, hnames⟩ => by rw [hclimbs, hnames]⟩
  have hsame := foldl_add_stepsOf false climbs names
  rw [h, foldl_add_stepsOf, Remains.mk.injEq] at hsame
  exact ⟨hsame.2.1.symm, hsame.2.2.symm⟩

/-- Whatever is cancelled first, the same remains of a path. -/
theorem of_iff {r : Remains} {p : Path} : r.Of p ↔ r = p.remains := by
  constructor
  · rintro ⟨habsolute, hcancels⟩
    rw [remains, foldl_add_of_cancels hcancels, foldl_add_stepsOf, ← habsolute]
  · rintro rfl
    exact ⟨absolute_foldl_add _ _, cancels_foldl_add p.steps ⟨p.absolute, 0, []⟩⟩

/-! ### Folding by what remains -/

theorem fold_eq (p : Path) : p.fold = p.remains.folded := by
  have habsolute : p.remains.absolute = p.absolute := absolute_foldl_add _ _
  have hsteps := foldl_foldStep p.steps ⟨p.absolute, 0, []⟩
  rw [fold, Path.mk.injEq]
  exact ⟨habsolute.symm, hsteps⟩

theorem mem_stepsOf {s : Step} {climbs : Nat} {names : List String} (hs : s ∈ stepsOf climbs names) :
    s = .up ∨ ∃ name ∈ names, s = .down name := by
  rcases List.mem_append.mp hs with hs | hs
  · exact .inl (List.eq_of_mem_replicate hs)
  · obtain ⟨name, hname, rfl⟩ := List.mem_map.mp hs
    exact .inr ⟨name, hname, rfl⟩

/-- Climbs are always proper steps, so whether some remains are is a matter of the names. -/
theorem proper_stepsOf {climbs climbs' : Nat} {names : List String}
    (h : ∀ s ∈ stepsOf climbs names, s.Proper) : ∀ s ∈ stepsOf climbs' names, s.Proper := by
  intro s hs
  rcases mem_stepsOf hs with rfl | ⟨name, hname, rfl⟩
  · trivial
  · exact h _ (List.mem_append_right _ (List.mem_map_of_mem hname))

theorem proper_folded {p : Path} (hp : ∀ s ∈ p.steps, s.Proper) :
    ∀ s ∈ p.remains.folded.steps, s.Proper := by
  rw [← fold_eq]
  exact (folded_fold hp folded_nil).proper

theorem folded_eq_normal_iff (r : Remains) :
    r.folded = r.normal ↔ if r.absolute then r.climbs % 2 = 0 else r.climbs ≤ 1 := by
  obtain ⟨absolute, climbs, names⟩ := r
  cases absolute with
  | false =>
    have hmod : climbs % 2 = climbs ↔ climbs ≤ 1 := by omega
    simp [folded, normal, stepsOf_inj, hmod]
  | true => simp [folded, normal, stepsOf_inj]

theorem folded_inj {r r' : Remains} :
    r.folded = r'.folded ↔
      r.absolute = r'.absolute ∧ r.climbs % 2 = r'.climbs % 2 ∧ r.names = r'.names := by
  rw [folded, folded, Path.mk.injEq, stepsOf_inj]

end Remains

/-! ### The name that a reference is looked up under -/

theorem resolve_eq (base : Path) (relative : String) :
    resolve base relative = (base.append (ofString relative)).remains.folded.toString := by
  rw [resolve, Remains.fold_eq]

/-- **A reference resolves to the normal form of its path as far as at most one climb finds no name
(at the root: an even number of them).** Given from a directory, each climb cancels the nearest name
before it that is not cancelled yet, in whatever order this is done, and there is one thing that
remains. The reference is looked up under those names, behind one climb if the number of climbs that
found no name is odd and behind none if it is even. So two references, seen from any two directories,
are looked up under one name exactly if they start alike, the same names remain, and the climbs that
remain are both odd or both even in number. A reference that starts at the root does not look at the
directory. -/
theorem resolve_remains (directory relative : String) :
    ∃ r : Remains,
      (∀ r' : Remains, r'.Of ((ofString directory).append (ofString relative)) ↔ r' = r) ∧
      resolve (ofString directory) relative = r.folded.toString ∧
      (resolve (ofString directory) relative = r.normal.toString ↔
        if r.absolute then r.climbs % 2 = 0 else r.climbs ≤ 1) ∧
      (∀ (directory' relative' : String) (r' : Remains),
        r'.Of ((ofString directory').append (ofString relative')) →
          (resolve (ofString directory') relative' = resolve (ofString directory) relative ↔
            r'.absolute = r.absolute ∧ r'.climbs % 2 = r.climbs % 2 ∧ r'.names = r.names)) ∧
      ((ofString relative).absolute = true →
        ∀ directory' : String,
          resolve (ofString directory') relative = resolve (ofString directory) relative) := by
  have hproper : ∀ directory relative : String,
      ∀ s ∈ ((ofString directory).append (ofString relative)).steps, s.Proper :=
    fun directory relative => proper_of_mem_append (proper_of_mem_ofString directory)
      (proper_of_mem_ofString relative)
  have hfolded := Remains.proper_folded (hproper directory relative)
  refine ⟨((ofString directory).append (ofString relative)).remains, fun r' => Remains.of_iff,
    resolve_eq _ _, ?_, ?_, ?_⟩
  · rw [resolve_eq, toString_inj hfolded (Remains.proper_stepsOf hfolded)]
    exact Remains.folded_eq_normal_iff _
  · intro directory' relative' r' hr'
    rw [Remains.of_iff.mp hr', resolve_eq, resolve_eq,
      toString_inj (Remains.proper_folded (hproper directory' relative')) hfolded]
    exact Remains.folded_inj
  · intro habsolute directory'
    rw [resolve, resolve, append, append, if_pos habsolute, if_pos habsolute]

/-- A reference that climbs twice from a directory without names finds the file that stands there,
and one that climbs at the root does not find it. -/
theorem climb_cancels_climb :
    ((⟨false, 2, ["x.d.ts"]⟩ : Remains).Of ((directoryOf "input.ts").append (ofString "../../x.d.ts")) ∧
      (⟨false, 2, ["x.d.ts"]⟩ : Remains).normal.toString = "../../x.d.ts" ∧
      resolve (directoryOf "input.ts") "../../x.d.ts" = "x.d.ts") ∧
    ((⟨true, 1, ["x.d.ts"]⟩ : Remains).Of ((directoryOf "/input.ts").append (ofString "../x.d.ts")) ∧
      (⟨true, 1, ["x.d.ts"]⟩ : Remains).normal.toString = "/x.d.ts" ∧
      resolve (directoryOf "/input.ts") "../x.d.ts" = "/../x.d.ts") := by
  refine ⟨⟨Remains.of_iff.mpr ?_, ?_, ?_⟩, ⟨Remains.of_iff.mpr ?_, ?_, ?_⟩⟩ <;> decide +kernel

end LuaSnippet.Path
