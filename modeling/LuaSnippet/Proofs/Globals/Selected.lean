import LuaSnippet.Globals.Overload
import Mathlib.Data.List.Forall2

/-!
# The overload that a call takes

A call takes the first overload that accepts its arguments and is refused only if none does. Arguments
that say less are accepted more often: an argument that is no literal fits every parameter, and a spread
one stands for any number of values. So a call is refused only if it would be refused for every list of
values that its spread arguments may stand for (`select_lenient`).
-/

namespace LuaSnippet.Globals

open Script (Signature Expr Arg)

variable {s : Signature} {args args' : List Arg} {index : Nat}

/-! ### One signature -/

theorem mismatch_eq_none_iff :
    mismatch s args = none ↔
      (args.any (·.isSpread) = true ∨ acceptsCount s args.length = true) ∧
        argumentsMismatch s 0 args = none := by
  unfold mismatch
  by_cases hspread : args.any (·.isSpread) = true
  · simp [hspread]
  · by_cases hcount : acceptsCount s args.length = true
    · simp [hcount]
    · simp [Bool.eq_false_iff.mpr hspread, hcount]

theorem argumentMismatch_of_not_literal {a : Arg} (ha : Literal.of? a.value = none) :
    argumentMismatch s index a = none := by
  unfold argumentMismatch
  rw [ha]
  cases parameterType s index <;> rfl

/-! ### The first signature that accepts -/

theorem firstAccepting_eq_none_iff {overloads : List Signature} :
    firstAccepting args index overloads = none ↔ ∀ s ∈ overloads, mismatch s args ≠ none := by
  induction overloads generalizing index with
  | nil => simp [firstAccepting]
  | cons s rest ih =>
    rw [firstAccepting, List.forall_mem_cons]
    split
    next hs => simp [hs]
    next m hs => simp [hs, ih]

theorem firstAccepting_eq_some_iff {overloads : List Signature} {i : Nat} :
    firstAccepting args index overloads = some (i, s) ↔
      ∃ j, i = index + j ∧ overloads[j]? = some s ∧ mismatch s args = none ∧
        ∀ s' ∈ overloads.take j, mismatch s' args ≠ none := by
  induction overloads generalizing index with
  | nil => simp [firstAccepting]
  | cons first rest ih =>
    rw [firstAccepting]
    split
    next hfirst =>
      constructor
      · intro h
        obtain ⟨rfl, rfl⟩ := Prod.mk.inj (Option.some.inj h)
        exact ⟨0, rfl, rfl, hfirst, by simp⟩
      · rintro ⟨j, rfl, hj, -, hbefore⟩
        cases j with
        | zero =>
          obtain rfl := Option.some.inj hj
          rfl
        | succ j => exact absurd hfirst (hbefore first (by simp))
    next m hfirst =>
      rw [ih]
      constructor
      · rintro ⟨j, rfl, hj, hs, hbefore⟩
        refine ⟨j + 1, by omega, hj, hs, ?_⟩
        rw [List.take_succ_cons]
        exact List.forall_mem_cons.mpr ⟨by simp [hfirst], hbefore⟩
      · rintro ⟨j, rfl, hj, hs, hbefore⟩
        cases j with
        | zero =>
          obtain rfl := Option.some.inj hj
          simp [hs] at hfirst
        | succ j =>
          rw [List.take_succ_cons] at hbefore
          exact ⟨j, by omega, hj, hs, (List.forall_mem_cons.mp hbefore).2⟩

theorem select_eq_ok_iff {overloads : List Signature} {i : Nat} :
    select overloads args = .ok (i, s) ↔
      overloads[i]? = some s ∧ mismatch s args = none ∧
        ∀ s' ∈ overloads.take i, mismatch s' args ≠ none := by
  have hselect : select overloads args = .ok (i, s) ↔
      firstAccepting args 0 overloads = some (i, s) := by
    unfold select
    split
    next found hfound => rw [hfound, Except.ok.injEq, Option.some.injEq]
    next hnone => simp [hnone]
  rw [hselect, firstAccepting_eq_some_iff]
  simp

theorem select_isOk {overloads : List Signature} :
    (select overloads args).isOk = true ↔ ∃ s ∈ overloads, mismatch s args = none := by
  have hnone : firstAccepting args 0 overloads = none ↔ _ := firstAccepting_eq_none_iff
  unfold select
  split
  next found hfound =>
    rw [hfound] at hnone
    simpa [Except.isOk, Except.toBool] using hnone
  next hrefused =>
    rw [hrefused] at hnone
    simpa [Except.isOk, Except.toBool] using hnone

theorem select_eq_error_iff {overloads : List Signature} {m : Mismatch} :
    select overloads args = .error m ↔
      (∀ s ∈ overloads, mismatch s args ≠ none) ∧
        ((∃ s, overloads = [s] ∧ mismatch s args = some m) ∨
          overloads.length ≠ 1 ∧ m = .noOverload) := by
  have hnone : firstAccepting args 0 overloads = none ↔ _ := firstAccepting_eq_none_iff
  unfold select
  split
  next found hfound =>
    rw [hfound] at hnone
    simp only [reduceCtorEq, false_iff, not_and] at hnone ⊢
    intro hall
    exact absurd hall hnone
  next hrefused =>
    have hall := hnone.mp hrefused
    rw [Except.error.injEq]
    unfold refusal
    split
    next s =>
      obtain ⟨m', hm'⟩ := Option.ne_none_iff_exists'.mp (hall s List.mem_cons_self)
      simp [hm']
    next hlength =>
      have hne : ∀ s, overloads ≠ [s] := fun s hs => hlength s hs
      have hlen : overloads.length ≠ 1 := fun h =>
        (List.length_eq_one_iff.mp h).elim fun s hs => hne s hs
      constructor
      · rintro rfl
        exact ⟨hall, .inr ⟨hlen, rfl⟩⟩
      · rintro ⟨-, ⟨s, hs, -⟩ | ⟨-, rfl⟩⟩
        · exact absurd hs (hne s)
        · rfl

/-! ### Arguments that say less -/

/-- Whether an argument is another one, or is no literal where the other one stands. -/
def Loosened (a a' : Arg) : Prop :=
  a' = a ∨ a'.isSpread = a.isSpread ∧ Literal.of? a'.value = none

theorem Loosened.isSpread {a a' : Arg} (h : Loosened a a') : a'.isSpread = a.isSpread := by
  rcases h with rfl | ⟨hspread, -⟩
  · rfl
  · exact hspread

theorem any_isSpread_of_loosened (h : List.Forall₂ Loosened args args') :
    args'.any (·.isSpread) = args.any (·.isSpread) := by
  induction h with
  | nil => rfl
  | cons ha _ ih => rw [List.any_cons, List.any_cons, ha.isSpread, ih]

theorem argumentsMismatch_of_loosened (h : List.Forall₂ Loosened args args')
    (hargs : argumentsMismatch s index args = none) : argumentsMismatch s index args' = none := by
  induction h generalizing index with
  | nil => rfl
  | @cons a a' rest rest' ha _ ih =>
    rw [argumentsMismatch] at hargs ⊢
    rw [ha.isSpread]
    split
    · rfl
    next hspread =>
      rw [if_neg hspread, Option.or_eq_none_iff] at hargs
      rw [Option.or_eq_none_iff]
      refine ⟨?_, ih hargs.2⟩
      rcases ha with rfl | ⟨-, hliteral⟩
      · exact hargs.1
      · exact argumentMismatch_of_not_literal hliteral

theorem mismatch_of_loosened (h : List.Forall₂ Loosened args args')
    (hargs : mismatch s args = none) : mismatch s args' = none := by
  rw [mismatch_eq_none_iff] at hargs ⊢
  rw [any_isSpread_of_loosened h, ← h.length_eq]
  exact ⟨hargs.1, argumentsMismatch_of_loosened h hargs.2⟩

/-! ### Spread arguments -/

/-- Arguments in which values that are no literals stand for the spread ones, any number for each. -/
inductive Expanded : List Arg → List Arg → Prop where
  | nil : Expanded [] []
  | plain {args args' : List Arg} (e : Expr) (h : Expanded args args') :
    Expanded (.plain e :: args) (.plain e :: args')
  | spread {args args' : List Arg} (e : Expr) (values : List Expr)
    (hvalues : ∀ v ∈ values, Literal.of? v = none) (h : Expanded args args') :
    Expanded (.spread e :: args) (values.map .plain ++ args')

theorem Expanded.eq_of_plain (h : Expanded args args') (hplain : args.any (·.isSpread) = false) :
    args' = args := by
  induction h with
  | nil => rfl
  | plain e _ ih => rw [ih hplain]
  | spread e values _ _ _ => cases hplain

theorem Expanded.argumentsMismatch_ne_none (h : Expanded args args')
    (hargs : argumentsMismatch s index args ≠ none) : argumentsMismatch s index args' ≠ none := by
  induction h generalizing index with
  | nil => exact hargs
  | plain e _ ih =>
    rw [argumentsMismatch, if_neg (by simp [Arg.isSpread]), ne_eq, Option.or_eq_none_iff] at hargs ⊢
    intro hnone
    refine hargs ⟨hnone.1, ?_⟩
    by_contra hrest
    exact ih hrest hnone.2
  | spread e values _ _ _ =>
    exact absurd (if_pos rfl) hargs

theorem Expanded.mismatch_ne_none (h : Expanded args args') (hargs : mismatch s args ≠ none) :
    mismatch s args' ≠ none := by
  cases hspread : args.any (·.isSpread) with
  | false => rwa [h.eq_of_plain hspread]
  | true =>
    rw [ne_eq, mismatch_eq_none_iff] at hargs ⊢
    intro hnone
    refine h.argumentsMismatch_ne_none (fun hnone' => ?_) hnone.2
    exact hargs ⟨.inl hspread, hnone'⟩

/-! ### No false alarm -/

/-- **A call is refused only for what it says.** It takes the first overload that accepts its arguments,
and is refused only if none does, with the reason of the overload if there is one only. Arguments that
are no literals in place of others keep a call accepted. And if a call is refused, so is every call with
values that are no literals in place of its spread arguments. -/
theorem select_lenient (overloads : List Signature) (args : List Arg) :
    (∀ i s, select overloads args = .ok (i, s) ↔
      overloads[i]? = some s ∧ mismatch s args = none ∧
        ∀ s' ∈ overloads.take i, mismatch s' args ≠ none) ∧
    (∀ m, select overloads args = .error m ↔
      (∀ s ∈ overloads, mismatch s args ≠ none) ∧
        ((∃ s, overloads = [s] ∧ mismatch s args = some m) ∨
          overloads.length ≠ 1 ∧ m = .noOverload)) ∧
    (∀ args', List.Forall₂ Loosened args args' →
      (select overloads args).isOk = true → (select overloads args').isOk = true) ∧
    ∀ args', Expanded args args' →
      (select overloads args).isOk = false → (select overloads args').isOk = false := by
  refine ⟨fun _ _ => select_eq_ok_iff, fun _ => select_eq_error_iff, ?_, ?_⟩
  · intro args' hloosened haccepted
    obtain ⟨s, hs, hnone⟩ := select_isOk.mp haccepted
    exact select_isOk.mpr ⟨s, hs, mismatch_of_loosened hloosened hnone⟩
  · intro args' hexpanded hrefused
    rw [Bool.eq_false_iff, ne_eq, select_isOk] at hrefused ⊢
    rintro ⟨s, hs, hnone⟩
    exact hexpanded.mismatch_ne_none (fun hargs => hrefused ⟨s, hs, hargs⟩) hnone

end LuaSnippet.Globals
