import LuaSnippet.Proofs.Lua.Values
import LuaSnippet.Proofs.Lowering.Resolution

/-!
# Groups around calls

Whether an expression is a call that gives several values, or an iterator, is decided without the groups
around it, but the groups are written. At a place that takes all values of such a call, a group lets only
the first of them through (`delivered_grouped`), so that a group which says nothing in the script changes
what arrives (`grouped_calls_cut`). Non-null marks are not written, and change nothing.
-/

namespace LuaSnippet.Script

/-- Whether there is a group around an expression, among its groups and non-null marks. -/
def Expr.isGrouped : Expr → Bool
  | .paren _ _ => true
  | .nonNull inner => inner.isGrouped
  | _ => false

theorem Expr.bare_bare : ∀ e : Expr, e.bare.bare = e.bare
  | .nonNull inner | .paren inner _ => bare_bare inner
  | .number _ _ | .string _ _ | .bool _ _ | .absent _ | .ident _ | .array _ _ | .object _ _
  | .call _ _ _ | .member _ _ | .unary _ _ _ | .binary _ _ _ | .arrow _ _ _ | .closure _ _ _ => rfl

end LuaSnippet.Script

namespace LuaSnippet.Lowering

open Script (Expr Stmt VarKind Ident Binding Span)
open Lua (Runtime exprValues fieldsContents IsSingle Datum)

/-! ### Places -/

/-- Where it matters whether an expression is a call that gives several values, or an iterator. -/
inductive Place where
  /-- The value of a variable statement with a pattern. -/
  | pattern (kind : VarKind) (names : List Ident) (span : Span)
  /-- The value of a variable statement with one name. -/
  | single (kind : VarKind) (name : Ident) (span : Span)
  | assigned (target : Expr) (span : Span)
  | field (key : String)
  | argument
  | spread
  /-- What a loop goes over. -/
  | loop (binding : Binding) (body : Stmt) (span : Span)

/-- The expression that a lowered statement takes its values from. -/
def sourceOf : List Lua.Stmt → Lua.Expr
  | [.declare _ (some e)] | [.assign _ e] | [.forIn _ e _] => e
  | _ => .nil

def fieldSource : Lua.Field → Lua.Expr
  | .item e | .entry _ e => e

namespace Place

/-- What is written at a place for an expression. -/
def lowered (st : Setting) (ss : Scopes) : Place → Expr → Lua.Expr
  | pattern kind names span, e =>
    sourceOf (lowerInner st ss (.bind kind (.pattern names) (some e) span)).1
  | single kind name span, e =>
    sourceOf (lowerInner st ss (.bind kind (.single name) (some e) span)).1
  | assigned target span, e => sourceOf (lowerInner st ss (.assign target e span)).1
  | field key, e => fieldSource (lowerField st ss (.mk key e))
  | argument, e => lowerArg st ss (.plain e)
  | spread, e => lowerArg st ss (.spread e)
  | loop binding body span, e => sourceOf (lowerInner st ss (.forOf binding e body span)).1

/-- Whether all values of an expression are taken at a place: a loop takes those of a call that gives
an iterator, and any other place those of a call that gives several values. -/
def takes (st : Setting) (ss : Scopes) : Place → Expr → Bool
  | loop _ _ _, e => isIterable st ss e
  | _, e => isMulti st ss e

/-- Whether the values that are taken at a place are collected into a table. -/
def collects : Place → Bool
  | single _ _ _ | assigned _ _ | field _ | argument => true
  | pattern _ _ _ | spread | loop _ _ _ => false

variable {M : Type → Type} {V : Type} [Monad M]

/-- The values that arrive at a place for an expression that it takes the values of. Where they are
collected, these are the values that the table is made from. -/
def values (R : Runtime M V) (st : Setting) (ss : Scopes) (place : Place) (e : Expr) : M (List V) :=
  match place.collects, place.lowered st ss e with
  | true, .table fields => List.map (·.value) <$> fieldsContents R fields
  | _, x => exprValues R x

variable {st : Setting} {ss : Scopes} {e : Expr}

theorem lowered_of_takes {place : Place} (htakes : place.takes st ss e = true) :
    place.lowered st ss e = collectIf place.collects (lowerExpr st ss e) := by
  cases place with
  | loop binding body span =>
    have hiterable : isIterable st ss e = true := htakes
    simp [lowered, lowerInner, Lowering.loop, hiterable, sourceOf, collects, collectIf]
  | pattern kind names span | single kind name span =>
    have hmulti : isMulti st ss e = true := htakes
    simp [lowered, lowerInner, declareWith, isPattern, hmulti, sourceOf, collects, collectIf,
      spreadUnless]
  | assigned | field | argument | spread =>
    have hmulti : isMulti st ss e = true := htakes
    simp [lowered, lowerInner, lowerField, lowerArg, hmulti, sourceOf, fieldSource, collects,
      collectIf, spreadUnless]

theorem takes_bare (place : Place) (e : Expr) : place.takes st ss e.bare = place.takes st ss e := by
  have hsignature : signature? st ss e.bare = signature? st ss e := by
    rw [signature?, signature?, e.bare_bare]
  cases place <;> simp only [takes, isIterable, isMulti, hsignature]

variable [LawfulMonad M]

/-- What arrives are the values of the lowered expression itself. -/
theorem values_of_takes (R : Runtime M V) {place : Place} (htakes : place.takes st ss e = true) :
    place.values R st ss e = exprValues R (lowerExpr st ss e) := by
  rw [values, lowered_of_takes htakes]
  cases place.collects with
  | false => rfl
  | true =>
    rw [collectIf, if_pos rfl]
    simp only
    rw [← List.map_singleton, Lua.fieldsContents_map_item, ← comp_map]
    simp [Lua.listValues, Runtime.kept, Function.comp_def, Lua.Content.value]

end Place

/-! ### Groups -/

variable {M : Type → Type} {V : Type} [Monad M] [LawfulMonad M] {st : Setting} {ss : Scopes}

/-- However many groups there are around an expression, its values are cut down once. -/
theorem exprValues_bare (R : Runtime M V) (st : Setting) (ss : Scopes) : ∀ e : Expr,
    exprValues R (lowerExpr st ss e) =
      if e.isGrouped then R.cut <$> exprValues R (lowerExpr st ss e.bare)
      else exprValues R (lowerExpr st ss e.bare)
  | .nonNull inner => exprValues_bare R st ss inner
  | .paren inner _ => by
    have hinner := exprValues_bare R st ss inner
    rw [lowerExpr, exprValues, hinner, Expr.isGrouped, Expr.bare, if_pos rfl]
    -- a second cut takes nothing away
    split
    · rw [← comp_map]
      rfl
    · rfl
  | .number _ _ | .string _ _ | .bool _ _ | .absent _ | .ident _ | .array _ _ | .object _ _
  | .call _ _ _ | .member _ _ | .unary _ _ _ | .binary _ _ _ | .arrow _ _ _ | .closure _ _ _ => rfl

/-- **A group lets one value through.** At a place that takes all values of a call, what arrives for the
call with groups and non-null marks around it is what arrives for the call alone, if there is no group,
and the first of these values otherwise. So both are the same exactly if there is no group or the call
gives one value. -/
theorem delivered_grouped (R : Runtime M V) (place : Place) {e : Expr}
    (htakes : place.takes st ss e = true) :
    place.values R st ss e =
        (if e.isGrouped then R.cut <$> place.values R st ss e.bare
          else place.values R st ss e.bare) ∧
      (place.values R st ss e = place.values R st ss e.bare ↔
        (e.isGrouped = true → IsSingle (place.values R st ss e.bare))) := by
  have hbare : place.takes st ss e.bare = true := (place.takes_bare e).trans htakes
  have hvalues : place.values R st ss e =
      if e.isGrouped then R.cut <$> place.values R st ss e.bare
      else place.values R st ss e.bare := by
    rw [Place.values_of_takes R htakes, Place.values_of_takes R hbare]
    exact exprValues_bare R st ss e
  refine ⟨hvalues, ?_⟩
  rw [hvalues]
  by_cases hgrouped : e.isGrouped = true
  · simp only [hgrouped, if_true, true_implies]
    exact (Lua.isSingle_iff R).symm
  · simp [hgrouped]

/-- A setting with a function that gives several values and one that gives an iterator. -/
def rowsSetting : Setting :=
  ⟨.lua53, Globals.declareAll
    [.function ⟨"pair", [], some "LuaMultiReturn<[number, number]>"⟩,
      .function ⟨"rows", [], some "LuaIterable<number>"⟩] []⟩

/-- A call of a function without arguments. -/
def callOf (name : String) : Expr :=
  .call (.ident ⟨name, ⟨0, 0⟩⟩) [] ⟨0, 0⟩

/-- A runtime in which every function gives two values. -/
def twoResults : Runtime Id Datum :=
  .ofResults fun _ => ["1", "2"]

/-- A marked call delivers both values, and a grouped one the first. -/
theorem pattern_delivered :
    let place := Place.pattern .constWord [⟨"a", ⟨0, 0⟩⟩, ⟨"b", ⟨0, 0⟩⟩] ⟨0, 0⟩
    (place.takes rowsSetting [[]] (.nonNull (callOf "pair")) = true ∧
      Id.run (place.values twoResults rowsSetting [[]] (.nonNull (callOf "pair"))) =
        [.atom "1", .atom "2"]) ∧
    (place.takes rowsSetting [[]] (.paren (.nonNull (callOf "pair")) ⟨0, 0⟩) = true ∧
      Id.run (place.values twoResults rowsSetting [[]]
        (.paren (.nonNull (callOf "pair")) ⟨0, 0⟩)) = [.atom "1"]) := by
  intro place
  have hmarked : place.takes rowsSetting [[]] (.nonNull (callOf "pair")) = true := by
    decide +kernel
  have hgrouped : place.takes rowsSetting [[]] (.paren (.nonNull (callOf "pair")) ⟨0, 0⟩) = true :=
    hmarked
  have hcall : Id.run (place.values twoResults rowsSetting [[]] (callOf "pair")) =
      [.atom "1", .atom "2"] := by
    decide +kernel
  refine ⟨⟨hmarked, ?_⟩, hgrouped, ?_⟩
  · rw [(delivered_grouped twoResults place hmarked).1]
    exact hcall
  · rw [(delivered_grouped twoResults place hgrouped).1]
    exact congrArg twoResults.cut hcall

/-- Groups are written at all places, and change what arrives there. -/
theorem grouped_calls_cut :
    Lua.stmtsText "\n" 0 (lower rowsSetting (Script.File.read "input.ts"
      "const [a, b] = (pair());\nconst c = [(pair()), ...(pair())];\nfor (const d of (rows())) { }"
      .es5).statements) =
      "local a, b = (pair())\nlocal c = \x7b\x7b(pair())\x7d, (pair())\x7d\nfor d in (rows()) do\nend\n" ∧
    ∀ q ∈ [(Place.pattern .constWord [⟨"a", ⟨0, 0⟩⟩, ⟨"b", ⟨0, 0⟩⟩] ⟨0, 0⟩, "pair"),
        (.argument, "pair"), (.spread, "pair"),
        (.loop (.single ⟨"d", ⟨0, 0⟩⟩) (.empty ⟨0, 0⟩) ⟨0, 0⟩, "rows")],
      q.1.takes rowsSetting [[]] (.paren (callOf q.2) ⟨0, 0⟩) = true ∧
        Id.run (q.1.values twoResults rowsSetting [[]] (.paren (callOf q.2) ⟨0, 0⟩)) =
          [.atom "1"] ∧
        Id.run (q.1.values twoResults rowsSetting [[]] (callOf q.2)) =
          [.atom "1", .atom "2"] := by
  decide +kernel

end LuaSnippet.Lowering
