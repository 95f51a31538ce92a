import LuaSnippet.Path

/-!
# Folded paths

A path that is folded climbs at most in its first step, and every other part of its text is a name
that leads down. So the text that is left behind any opening of it has only such names behind its
first slash, unless it starts with one.
-/

namespace LuaSnippet.Path

/-! ### Parts -/

theorem parts_ne_nil (cs : List Char) : parts cs ≠ [] := by
  cases cs with
  | nil => simp [parts]
  | cons c cs =>
    unfold parts
    split
    · simp
    · split <;> simp

theorem parts_cons_of_ne {c : Char} (hc : c ≠ '/') {cs : List Char} {p : List Char}
    {ps : List (List Char)} (hcs : parts cs = p :: ps) : parts (c :: cs) = (c :: p) :: ps := by
  rw [parts, if_neg hc, hcs]

theorem slash_notMem_of_mem_parts (cs : List Char) : ∀ p ∈ parts cs, '/' ∉ p := by
  induction cs with
  | nil => simp [parts]
  | cons c cs ih =>
    obtain ⟨p, ps, hcs⟩ := List.exists_cons_of_ne_nil (parts_ne_nil cs)
    rw [hcs] at ih
    by_cases hc : c = '/'
    · rw [parts, if_pos hc, hcs]
      intro q hq
      rcases List.mem_cons.mp hq with rfl | hq
      · simp
      · exact ih q hq
    · rw [parts_cons_of_ne hc hcs]
      intro q hq
      rcases List.mem_cons.mp hq with rfl | hq
      · simp [Ne.symm hc, ih p List.mem_cons_self]
      · exact ih q (List.mem_cons_of_mem _ hq)

theorem parts_of_slash_notMem {cs : List Char} (hcs : '/' ∉ cs) : parts cs = [cs] := by
  induction cs with
  | nil => rfl
  | cons c cs ih =>
    rw [List.mem_cons, not_or] at hcs
    exact parts_cons_of_ne (Ne.symm hcs.1) (ih hcs.2)

theorem parts_append (a : List Char) :
    ∃ front last, parts a = front ++ [last] ∧
      ∀ r p ps, parts r = p :: ps → parts (a ++ r) = front ++ (last ++ p) :: ps := by
  induction a with
  | nil => exact ⟨[], [], rfl, fun r p ps hr => hr⟩
  | cons c a ih =>
    obtain ⟨front, last, ha, happ⟩ := ih
    by_cases hc : c = '/'
    · refine ⟨[] :: front, last, by rw [parts, if_pos hc, ha]; rfl, ?_⟩
      intro r p ps hr
      rw [List.cons_append, parts, if_pos hc, happ r p ps hr]
      rfl
    · cases front with
      | nil =>
        refine ⟨[], c :: last, parts_cons_of_ne hc ha, ?_⟩
        intro r p ps hr
        exact parts_cons_of_ne hc (happ r p ps hr)
      | cons f front =>
        refine ⟨(c :: f) :: front, last, parts_cons_of_ne hc ha, ?_⟩
        intro r p ps hr
        exact parts_cons_of_ne hc (happ r p ps hr)

theorem parts_append_slash (a b : List Char) : parts (a ++ '/' :: b) = parts a ++ parts b := by
  obtain ⟨front, last, ha, happ⟩ := parts_append a
  rw [happ ('/' :: b) [] (parts b) (by rw [parts, if_pos rfl]), ha]
  simp

theorem intercalate_parts (cs : List Char) : ['/'].intercalate (parts cs) = cs := by
  induction cs with
  | nil => rfl
  | cons c cs ih =>
    obtain ⟨p, ps, hcs⟩ := List.exists_cons_of_ne_nil (parts_ne_nil cs)
    rw [hcs] at ih
    by_cases hc : c = '/'
    · rw [parts, if_pos hc, hcs, List.intercalate_cons_cons, ih, hc]
      rfl
    · rw [parts_cons_of_ne hc hcs]
      cases ps with
      | nil =>
        rw [List.intercalate_singleton] at ih ⊢
        rw [ih]
      | cons q qs =>
        rw [List.intercalate_cons_cons] at ih ⊢
        simp only [List.cons_append, ih]

/-! ### Folding -/

/-- A step that a part of a text between slashes can take. -/
def Step.Proper : Step → Prop
  | .up => True
  | .down name => '/' ∉ name.toList ∧ stepOf name.toList = some (.down name)

/-- Some folded steps: the first of them may climb, and none behind it. -/
structure Folded (steps : List Step) : Prop where
  proper : ∀ s ∈ steps, s.Proper
  ne_up : ∀ s ∈ steps.tail, s ≠ .up

theorem folded_nil : Folded [] := ⟨by simp, by simp⟩

theorem proper_of_stepOf {part : List Char} {s : Step} (hpart : '/' ∉ part)
    (hs : stepOf part = some s) : s.Proper := by
  have hstep := hs
  unfold stepOf at hs
  split at hs
  · simp at hs
  · split at hs
    · rw [← Option.some.inj hs]
      trivial
    · rw [← Option.some.inj hs] at hstep ⊢
      exact ⟨by rwa [String.toList_ofList], by rwa [String.toList_ofList]⟩

theorem proper_of_mem_ofString (text : String) : ∀ s ∈ (ofString text).steps, s.Proper := by
  intro s hs
  obtain ⟨part, hpart, hstep⟩ := List.mem_filterMap.mp hs
  exact proper_of_stepOf (slash_notMem_of_mem_parts _ part hpart) hstep

theorem Folded.foldStep {done : List Step} (hdone : Folded done) {s : Step} (hs : s.Proper) :
    Folded (foldStep done s) := by
  cases s with
  | up =>
    rw [Path.foldStep]
    by_cases hnil : done = []
    · rw [if_pos hnil]
      exact ⟨by simp [Step.Proper], by simp⟩
    · rw [if_neg hnil]
      refine ⟨fun t ht => hdone.proper t (List.dropLast_subset _ ht), fun t ht => ?_⟩
      rw [List.tail_dropLast] at ht
      exact hdone.ne_up t (List.dropLast_subset _ ht)
  | down name =>
    refine ⟨fun t ht => ?_, fun t ht => ?_⟩
    · rcases List.mem_append.mp ht with ht | ht
      · exact hdone.proper t ht
      · rw [List.mem_singleton.mp ht]
        exact hs
    · cases done with
      | nil => simp [Path.foldStep] at ht
      | cons first done =>
        rcases List.mem_append.mp (show t ∈ done ++ [Step.down name] from ht) with ht | ht
        · exact hdone.ne_up t ht
        · rw [List.mem_singleton.mp ht]
          simp

theorem folded_fold {steps : List Step} (hsteps : ∀ s ∈ steps, s.Proper) {done : List Step}
    (hdone : Folded done) : Folded (steps.foldl foldStep done) := by
  induction steps generalizing done with
  | nil => exact hdone
  | cons s steps ih =>
    exact ih (fun t ht => hsteps t (List.mem_cons_of_mem _ ht))
      (hdone.foldStep (hsteps s List.mem_cons_self))

def IsFolded (name : String) : Prop :=
  ∃ absolute steps, Folded steps ∧ name = Path.toString ⟨absolute, steps⟩

theorem isFolded_resolve (name relative : String) :
    IsFolded (resolve (directoryOf name) relative) := by
  refine ⟨_, _, folded_fold ?_ folded_nil, rfl⟩
  intro s hs
  unfold append at hs
  split at hs
  · exact proper_of_mem_ofString relative s hs
  · rcases List.mem_append.mp hs with hs | hs
    · refine proper_of_mem_ofString name s ?_
      unfold directoryOf parent at hs
      split at hs
      · simp at hs
      · exact List.dropLast_subset _ hs
    · exact proper_of_mem_ofString relative s hs

/-! ### The text of a folded path -/

theorem Step.Proper.slash_notMem {s : Step} (hs : s.Proper) : '/' ∉ stepText s := by
  cases s with
  | up => simp [stepText]
  | down name => exact hs.1

theorem parts_stepsText {steps : List Step} (hne : steps ≠ []) (hsteps : ∀ s ∈ steps, s.Proper) :
    parts (stepsText steps) = steps.map stepText := by
  induction steps with
  | nil => exact absurd rfl hne
  | cons s steps ih =>
    have hs := (hsteps s List.mem_cons_self).slash_notMem
    cases steps with
    | nil => exact parts_of_slash_notMem hs
    | cons t steps =>
      rw [stepsText, parts_append_slash, parts_of_slash_notMem hs,
        ih (by simp) fun u hu => hsteps u (List.mem_cons_of_mem _ hu)]
      · rfl
      · simp

/-- A part of a text that leads down. -/
def IsName (part : List Char) : Prop :=
  stepOf part = some (.down (String.ofList part))

theorem isName_stepText {s : Step} (hs : s.Proper) (hup : s ≠ .up) : IsName (stepText s) := by
  cases s with
  | up => exact absurd rfl hup
  | down name =>
    unfold IsName stepText
    rw [String.ofList_toList]
    exact hs.2

theorem Folded.isName_of_mem_tail {steps : List Step} (hsteps : Folded steps) :
    ∀ part ∈ (parts (stepsText steps)).tail, IsName part := by
  by_cases hne : steps = []
  · rw [hne]
    simp [stepsText, parts]
  · intro part hpart
    rw [parts_stepsText hne hsteps.proper, ← List.map_tail] at hpart
    obtain ⟨s, hs, rfl⟩ := List.mem_map.mp hpart
    exact isName_stepText (hsteps.proper s (List.mem_of_mem_tail hs)) (hsteps.ne_up s hs)

theorem tail_parts_suffix (a r : List Char) : (parts r).tail <:+ (parts (a ++ r)).tail := by
  obtain ⟨front, last, -, happ⟩ := parts_append a
  obtain ⟨p, ps, hr⟩ := List.exists_cons_of_ne_nil (parts_ne_nil r)
  rw [happ r p ps hr, hr]
  cases front with
  | nil => exact List.suffix_rfl
  | cons f front =>
    refine (List.suffix_cons (last ++ p) ps).trans ?_
    exact List.suffix_append front _

theorem IsFolded.isName_of_append {name : String} (hname : IsFolded name) {a r : List Char}
    (heq : name.toList = a ++ r) (hr : r.head? ≠ some '/') :
    ∀ part ∈ (parts r).tail, IsName part := by
  obtain ⟨absolute, steps, hsteps, rfl⟩ := hname
  rw [Path.toString, String.toList_ofList] at heq
  intro part hpart
  cases absolute with
  | false =>
    rw [if_neg (by simp), List.nil_append] at heq
    refine hsteps.isName_of_mem_tail part ?_
    rw [heq]
    exact (tail_parts_suffix a r).subset hpart
  | true =>
    rw [if_pos rfl] at heq
    cases a with
    | nil =>
      rw [List.nil_append] at heq
      exact absurd (by rw [← heq]; rfl) hr
    | cons c a =>
      rw [List.cons_append, List.cons_append, List.nil_append, List.cons.injEq] at heq
      refine hsteps.isName_of_mem_tail part ?_
      rw [heq.2]
      exact (tail_parts_suffix a r).subset hpart

end LuaSnippet.Path
