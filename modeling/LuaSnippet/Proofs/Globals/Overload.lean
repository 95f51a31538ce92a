import LuaSnippet.Globals.Overload

/-!
# Calls and overloads

What is called depends on the global names and on one name of the call, which is either local or not
(`overloads?_congr`). A call takes one of its overloads, which accepts it (`accepts_of_select`). Where a
call is refused for one of its arguments, there is such an argument (`index_lt_of_select`).
-/

namespace LuaSnippet.Globals

open Script (Signature Expr Arg)

/-- The name of a namespace that an expression may be, in groups or not. -/
def spaceNames (e : Expr) : List String :=
  match e.bare with
  | .ident id => [id.name]
  | _ => []

/-- The name that decides what is called. -/
def calleeNames (callee : Expr) : List String :=
  match callee.bare with
  | .ident id => [id.name]
  | .member owner _ => spaceNames owner
  | _ => []

theorem overloads?_congr (t : Table) {isLocal isLocal' : String → Bool} (callee : Expr)
    (hsame : ∀ x ∈ calleeNames callee, isLocal x = isLocal' x) :
    overloads? t isLocal callee = overloads? t isLocal' callee := by
  unfold calleeNames at hsame
  unfold overloads?
  split
  next f hf =>
    rw [hf] at hsame
    rw [hsame f.name List.mem_cons_self]
  next owner property hcallee =>
    rw [hcallee] at hsame
    simp only [spaceNames] at hsame
    split
    next space hspace =>
      rw [hspace] at hsame
      rw [hsame space.name List.mem_cons_self]
    · rfl
  · rfl

theorem accepts_of_firstAccepting {args : List Arg} {index : Nat} {overloads : List Signature}
    {found : Nat × Signature} (hfound : firstAccepting args index overloads = some found) :
    found.2 ∈ overloads ∧ mismatch found.2 args = none := by
  induction overloads generalizing index with
  | nil => simp [firstAccepting] at hfound
  | cons s rest ih =>
    rw [firstAccepting] at hfound
    split at hfound
    next hs =>
      obtain rfl := Option.some.inj hfound
      exact ⟨List.mem_cons_self, hs⟩
    · obtain ⟨hmem, hnone⟩ := ih hfound
      exact ⟨List.mem_cons_of_mem s hmem, hnone⟩

theorem accepts_of_select {overloads : List Signature} {args : List Arg} {found : Nat × Signature}
    (hselect : select overloads args = .ok found) :
    found.2 ∈ overloads ∧ mismatch found.2 args = none := by
  unfold select at hselect
  split at hselect
  next found' hfound =>
    obtain rfl := Except.ok.inj hselect
    exact accepts_of_firstAccepting hfound
  · simp at hselect

theorem index_of_argumentMismatch {s : Signature} {index i : Nat} {a : Arg} {got want : String}
    (ha : argumentMismatch s index a = some (.argument i got want)) : i = index := by
  unfold argumentMismatch at ha
  split at ha
  · split at ha
    · simp at ha
    · rw [Option.some.injEq, Mismatch.argument.injEq] at ha
      exact ha.1.symm
  · simp at ha

theorem index_lt_of_argumentsMismatch {s : Signature} {index i : Nat} {args : List Arg}
    {got want : String}
    (hargs : argumentsMismatch s index args = some (.argument i got want)) :
    i < index + args.length := by
  induction args generalizing index with
  | nil => simp [argumentsMismatch] at hargs
  | cons a rest ih =>
    rw [argumentsMismatch] at hargs
    split at hargs
    · simp at hargs
    · rw [List.length_cons]
      rcases Option.or_eq_some_iff.mp hargs with ha | ⟨-, hrest⟩
      · have hi := index_of_argumentMismatch ha
        omega
      · have hi := ih hrest
        omega

theorem index_lt_of_select {overloads : List Signature} {args : List Arg} {i : Nat}
    {got want : String} (hselect : select overloads args = .error (.argument i got want)) :
    i < args.length := by
  unfold select at hselect
  split at hselect
  · simp at hselect
  · rw [Except.error.injEq] at hselect
    unfold refusal at hselect
    split at hselect
    next s _ =>
      unfold mismatch at hselect
      split at hselect
      · simp at hselect
      · rcases hargs : argumentsMismatch s 0 args with _ | m
        · simp [hargs] at hselect
        · rw [hargs, Option.getD_some] at hselect
          have hi := index_lt_of_argumentsMismatch (hselect ▸ hargs)
          omega
    · simp at hselect

end LuaSnippet.Globals
