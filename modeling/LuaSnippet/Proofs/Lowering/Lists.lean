import LuaSnippet.Proofs.Lowering.Delivery

/-!
# Lists of arguments and elements

A plain entry of a list stands for one value, and a spread one for all elements of its value or for all
values that a call returns. In Lua only the last expression of a list gives more values than one, so a
spread entry with another one behind it comes to its first value (`values_but_last`). All values arrive
where every spread entry but the last stands for one value (`list_values_kept`); where one stands for
more, the others are lost (`spread_before_last_cut`).
-/

namespace LuaSnippet.Lowering

open Script (Expr Arg)
open Lua (Runtime Content exprValues listValues fieldsContents IsSingle Datum)

section

variable {M : Type → Type} {V : Type} [Monad M]

/-- The values that an entry of a list stands for. Where a plain entry is a call that gives several
values, it stands for a table of them. -/
def entryValues (R : Runtime M V) (st : Setting) (ss : Scopes) : Arg → M (List V)
  | .plain e =>
    if isMulti st ss e then do
      let vs ← exprValues R (lowerExpr st ss e)
      List.singleton <$> R.table (vs.map .item)
    else R.cut <$> exprValues R (lowerExpr st ss e)
  | .spread e =>
    if isMulti st ss e then exprValues R (lowerExpr st ss e)
    else do
      let v ← exprValues R (lowerExpr st ss e)
      R.elements (R.first v)

/-- The values that a list stands for, one entry after the other. -/
def entriesValues (R : Runtime M V) (st : Setting) (ss : Scopes) (args : List Arg) : M (List V) :=
  List.flatten <$> args.mapM (entryValues R st ss)

/-- The library of a dialect has its function for the elements of a table. -/
def Unpacks (R : Runtime M V) (d : Dialect) : Prop :=
  ∃ f, R.builtin (unpackBuiltin d) = pure f ∧ ∀ v, R.call f [v] = R.elements v

/-- An entry whose value is left to Lua as it is gives one value for it. Only a call that is not
declared to give several values may fail to. -/
def GivesOne (R : Runtime M V) (st : Setting) (ss : Scopes) (a : Arg) : Prop :=
  isMulti st ss a.value = false → (lowerExpr st ss a.value).isOpen = true →
    IsSingle (exprValues R (lowerExpr st ss a.value))

variable [LawfulMonad M] {R : Runtime M V} {st : Setting} {ss : Scopes}

theorem listValues_singleton (R : Runtime M V) (x : Lua.Expr) :
    listValues R [x] = exprValues R x := by
  simp [listValues, Runtime.kept]

theorem lowerArgs_eq (st : Setting) (ss : Scopes) (args : List Arg) :
    lowerArgs st ss args = args.map (lowerArg st ss) := by
  induction args with
  | nil => rfl
  | cons a rest ih => rw [lowerArgs, ih, List.map_cons]

theorem lowerItems_eq (st : Setting) (ss : Scopes) (args : List Arg) :
    lowerItems st ss args = (lowerArgs st ss args).map .item := by
  induction args with
  | nil => rfl
  | cons a rest ih => rw [lowerItems, lowerArgs, ih, List.map_cons]

/-! ### Entries -/

theorem GivesOne.isSingle {a : Arg} (ha : GivesOne R st ss a) (hmulti : isMulti st ss a.value = false) :
    IsSingle (exprValues R (lowerExpr st ss a.value)) := by
  cases hopen : (lowerExpr st ss a.value).isOpen with
  | true => exact ha hmulti hopen
  | false => exact Lua.isSingle_exprValues R hopen

theorem exprValues_unpack {d : Dialect} (hR : Unpacks R d) {x : Lua.Expr}
    (hx : IsSingle (exprValues R x)) :
    exprValues R (unpack d x) = (do
      let v ← exprValues R x
      R.elements (R.first v)) := by
  obtain ⟨f, hf, hcall⟩ := hR
  -- all values of `x` are passed on, and a second one would say where to start
  obtain ⟨y, hy⟩ := hx
  have hfirst : ∀ v : V, R.first (List.singleton v) = v := fun _ => rfl
  have helements : ∀ v : V, R.call f (List.singleton v) = R.elements v := hcall
  rw [unpack, exprValues, exprValues, hf, listValues_singleton, hy]
  simp only [map_pure, pure_bind, bind_map_left, hfirst, helements]

theorem exprValues_spread (hR : Unpacks R st.dialect) {e : Expr} (he : GivesOne R st ss (.spread e)) :
    exprValues R (lowerArg st ss (.spread e)) = entryValues R st ss (.spread e) := by
  rw [lowerArg, entryValues, spreadUnless]
  cases hmulti : isMulti st ss e with
  | true => rfl
  | false => exact exprValues_unpack hR (he.isSingle hmulti)

theorem exprValues_collected (R : Runtime M V) {e : Expr} (hmulti : isMulti st ss e = true) :
    exprValues R (lowerArg st ss (.plain e)) = entryValues R st ss (.plain e) := by
  rw [lowerArg, entryValues, hmulti, collectIf, if_pos rfl, if_pos rfl, exprValues,
    ← List.map_singleton, Lua.fieldsContents_map_item, listValues_singleton, bind_map_left]

theorem isSingle_plain (R : Runtime M V) (st : Setting) (ss : Scopes) (e : Expr) :
    IsSingle (entryValues R st ss (.plain e)) := by
  rw [entryValues]
  split
  · exact Lua.isSingle_bind R fun _ => ⟨_, rfl⟩
  · exact Lua.isSingle_cut R _

theorem first_lowerArg (hR : Unpacks R st.dialect) {a : Arg}
    (ha : a.isSpread = true → GivesOne R st ss a) :
    R.first <$> exprValues R (lowerArg st ss a) = R.first <$> entryValues R st ss a := by
  cases a with
  | spread e => rw [exprValues_spread hR (ha rfl)]
  | plain e =>
    cases hmulti : isMulti st ss e with
    | true => rw [exprValues_collected R hmulti]
    | false =>
      rw [lowerArg, entryValues, hmulti, if_neg Bool.false_ne_true, ← comp_map]
      rfl

theorem exprValues_last (hR : Unpacks R st.dialect) {a : Arg} (ha : GivesOne R st ss a) :
    exprValues R (lowerArg st ss a) = entryValues R st ss a := by
  cases a with
  | spread e => exact exprValues_spread hR ha
  | plain e =>
    cases hmulti : isMulti st ss e with
    | true => exact exprValues_collected R hmulti
    | false =>
      -- nothing cuts the last entry, so that it has to be single of its own accord
      have hcut := (Lua.isSingle_iff R).mp (ha.isSingle hmulti)
      rw [lowerArg, entryValues, hmulti, if_neg Bool.false_ne_true]
      exact hcut.symm

/-! ### Lists -/

/-- **Every entry but the last comes to one value**, the first that it stands for, and the last to all
that it stands for. -/
theorem values_but_last (hR : Unpacks R st.dialect) {init : List Arg} {last : Arg}
    (hinit : ∀ a ∈ init, a.isSpread = true → GivesOne R st ss a) (hlast : GivesOne R st ss last) :
    listValues R (lowerArgs st ss (init ++ [last])) = (do
      let vs ← init.mapM fun a => R.first <$> entryValues R st ss a
      let ws ← entryValues R st ss last
      pure (vs ++ ws)) := by
  have hfirsts : ∀ l : List Arg, (∀ a ∈ l, a.isSpread = true → GivesOne R st ss a) →
      (l.map (lowerArg st ss)).mapM (fun x => R.first <$> exprValues R x) =
        l.mapM fun a => R.first <$> entryValues R st ss a := by
    intro l hl
    induction l with
    | nil => rfl
    | cons a rest ih =>
      rw [List.map_cons, List.mapM_cons, List.mapM_cons, first_lowerArg hR (hl a List.mem_cons_self),
        ih fun b hb => hl b (List.mem_cons_of_mem _ hb)]
  rw [lowerArgs_eq, List.map_append, List.map_singleton, Lua.listValues_snoc, hfirsts init hinit,
    exprValues_last hR hlast]

theorem mapM_first_eq_flatten (R : Runtime M V) {α : Type} {f : α → M (List V)} {l : List α}
    (hl : ∀ a ∈ l, IsSingle (f a)) :
    l.mapM (fun a => R.first <$> f a) = List.flatten <$> l.mapM f := by
  induction l with
  | nil => simp
  | cons a rest ih =>
    obtain ⟨y, hy⟩ := hl a List.mem_cons_self
    have hfirst : ∀ v : V, R.first [v] = v := fun _ => rfl
    rw [List.mapM_cons, List.mapM_cons, ih fun b hb => hl b (List.mem_cons_of_mem _ hb), hy]
    simp [hfirst, List.singleton]

/-- What a list needs so that all its values arrive: its spread entries stand for one value each, but
for the last, and no value is unpacked or stands last that is a call with more or fewer values than
one. -/
structure Deliverable (R : Runtime M V) (st : Setting) (ss : Scopes) (args : List Arg) : Prop where
  spreads : ∀ a ∈ args.dropLast, a.isSpread = true → IsSingle (entryValues R st ss a)
  calls : ∀ a ∈ args, a.isSpread = true ∨ args.getLast? = some a → GivesOne R st ss a

/-- **Lists keep every value** that they can deliver: the values of a list of arguments, and those that
an array is made from, are the values that the list stands for. -/
theorem list_values_kept (hR : Unpacks R st.dialect) {args : List Arg}
    (hargs : Deliverable R st ss args) :
    listValues R (lowerArgs st ss args) = entriesValues R st ss args ∧
      ∀ span, exprValues R (lowerExpr st ss (.array args span)) = (do
        let vs ← entriesValues R st ss args
        List.singleton <$> R.table (vs.map .item)) := by
  have hlist : listValues R (lowerArgs st ss args) = entriesValues R st ss args := by
    rcases List.eq_nil_or_concat args with rfl | ⟨init, last, rfl⟩
    · simp [lowerArgs, listValues, entriesValues]
    · rw [List.concat_eq_append] at hargs ⊢
      have hsingle : ∀ a ∈ init, IsSingle (entryValues R st ss a) := by
        intro a ha
        cases a with
        | plain e => exact isSingle_plain R st ss e
        | spread e => exact hargs.spreads _ (by rwa [List.dropLast_concat]) rfl
      rw [values_but_last hR
        (fun a ha hspread => hargs.calls a (List.mem_append_left _ ha) (.inl hspread))
        (hargs.calls last (by simp) (.inr (by simp))), mapM_first_eq_flatten R hsingle]
      simp [entriesValues]
  refine ⟨hlist, fun span => ?_⟩
  rw [lowerExpr, exprValues, lowerItems_eq, Lua.fieldsContents_map_item, hlist, bind_map_left]

end

def numbers (texts : List String) : Expr :=
  .array (texts.map fun text => .plain (.number text ⟨0, 0⟩)) ⟨0, 0⟩

theorem unpacks_twoResults : Unpacks twoResults .lua53 :=
  ⟨.atom "table.unpack", rfl, fun _ => rfl⟩

/-- Entries of several kinds: an unpacked element, a table of the results of a call, and all of them. -/
def mixedArgs : List Arg :=
  [.spread (numbers ["0"]), .plain (callOf "pair"), .spread (callOf "pair")]

theorem mixedArgs_values_kept :
    (Unpacks twoResults .lua53 ∧ Deliverable twoResults rowsSetting [[]] mixedArgs) ∧
      Id.run (listValues twoResults (lowerArgs rowsSetting [[]] mixedArgs)) =
        [.atom "0", ⟨"table", ["1", "2"]⟩, .atom "1", .atom "2"] := by
  have hclosed : ∀ a ∈ mixedArgs, isMulti rowsSetting [[]] a.value = true ∨
      (lowerExpr rowsSetting [[]] a.value).isOpen = false := by
    decide +kernel
  have hspread : Id.run (entryValues twoResults rowsSetting [[]] (.spread (numbers ["0"]))) =
      [.atom "0"] := by
    decide +kernel
  have hargs : Deliverable twoResults rowsSetting [[]] mixedArgs := by
    refine ⟨fun a ha hspreads => ?_, fun a ha _ hmulti hopen => ?_⟩
    · simp only [mixedArgs, List.dropLast, List.mem_cons, List.not_mem_nil, or_false] at ha
      rcases ha with rfl | rfl
      · exact ⟨_, hspread⟩
      · simp [Arg.isSpread] at hspreads
    · rcases hclosed a ha with h | h
      · simp [h] at hmulti
      · simp [h] at hopen
  have hvalues := (list_values_kept unpacks_twoResults hargs).1
  have hentries : Id.run (entriesValues twoResults rowsSetting [[]] mixedArgs) =
      [.atom "0", ⟨"table", ["1", "2"]⟩, .atom "1", .atom "2"] := by
    decide +kernel
  exact ⟨⟨unpacks_twoResults, hargs⟩, (congrArg Id.run hvalues).trans hentries⟩

/-- Of the elements of a spread entry with another one behind it, only the first arrives. -/
theorem spread_before_last_cut :
    let args := [Arg.spread (numbers ["1", "2"]), .plain (.number "3" ⟨0, 0⟩)]
    Lua.stmtsText "\n" 0 (lower rowsSetting (Script.File.read "input.ts" "print(...[1, 2], 3);"
        .es5).statements) = "print(table.unpack(\x7b1, 2\x7d), 3)\n" ∧
      Unpacks twoResults rowsSetting.dialect ∧
      Id.run (listValues twoResults (lowerArgs rowsSetting [[]] args)) = [.atom "1", .atom "3"] ∧
      Id.run (entriesValues twoResults rowsSetting [[]] args) =
        [.atom "1", .atom "2", .atom "3"] := by
  intro args
  refine ⟨?_, unpacks_twoResults, ?_⟩
  · decide +kernel
  · decide +kernel

end LuaSnippet.Lowering
