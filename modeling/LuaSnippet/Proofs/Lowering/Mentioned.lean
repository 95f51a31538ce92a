import LuaSnippet.Proofs.Globals.Mentioned
import LuaSnippet.Lowering.Lower

/-!
# Lowering and mentioned names

The lowered form of a script depends only on what the names in it stand for (`lower_congr`). Global
names are looked up for the overload of a call alone, to see whether the call gives several values or
an iterator.
-/

namespace LuaSnippet.Lowering

open Script
open Globals (Table AgreeOn agreeOn_append exprSites_bare)

variable {t t' : Table} {d : Dialect}

theorem signature?_congr (ss : Scopes) {w : Way} {e : Expr} (h : AgreeOn t t' (exprSites w e)) :
    signature? ⟨d, t⟩ ss e = signature? ⟨d, t'⟩ ss e := by
  rw [← exprSites_bare] at h
  unfold signature?
  split
  next callee args span hcall =>
    rw [hcall] at h
    have hcallee := (agreeOn_append.mp (agreeOn_append.mp h).1).1
    rw [hcallee.overloads?]
  · rfl

theorem isMulti_congr (ss : Scopes) {w : Way} {e : Expr} (h : AgreeOn t t' (exprSites w e)) :
    isMulti ⟨d, t⟩ ss e = isMulti ⟨d, t'⟩ ss e := by
  rw [isMulti, isMulti, signature?_congr ss h]

theorem isIterable_congr (ss : Scopes) {w : Way} {e : Expr} (h : AgreeOn t t' (exprSites w e)) :
    isIterable ⟨d, t⟩ ss e = isIterable ⟨d, t'⟩ ss e := by
  rw [isIterable, isIterable, signature?_congr ss h]

mutual

theorem lowerExpr_congr (ss : Scopes) (w : Way) : ∀ e : Expr, AgreeOn t t' (exprSites w e) →
    lowerExpr ⟨d, t⟩ ss e = lowerExpr ⟨d, t'⟩ ss e
  | .number _ _, _ | .string _ _, _ | .bool _ _, _ | .absent _, _ | .ident _, _ => rfl
  | .array elements _, h => by
    rw [lowerExpr, lowerExpr, lowerItems_congr ss w elements h]
  | .object fields _, h => by
    rw [lowerExpr, lowerExpr, lowerFields_congr ss w fields h]
  | .call callee args span, h => by
    obtain ⟨hparts, -⟩ := agreeOn_append.mp h
    obtain ⟨hcallee, hargs⟩ := agreeOn_append.mp hparts
    rw [lowerExpr, lowerExpr, lowerExpr_congr ss w callee hcallee, lowerArgs_congr ss w args hargs]
  | .member owner property, h => by
    rw [lowerExpr, lowerExpr, lowerExpr_congr ss w owner (agreeOn_append.mp h).1]
  | .nonNull inner, h => lowerExpr_congr ss w inner h
  | .paren inner _, h => by
    rw [lowerExpr, lowerExpr, lowerExpr_congr ss w inner h]
  | .unary _ operand _, h => by
    rw [lowerExpr, lowerExpr, lowerExpr_congr ss w operand h]
  | .binary _ lhs rhs, h => by
    obtain ⟨hlhs, hrhs⟩ := agreeOn_append.mp h
    rw [lowerExpr, lowerExpr, lowerExpr_congr ss w lhs hlhs, lowerExpr_congr ss w rhs hrhs]
  | .arrow params value _, h => by
    rw [lowerExpr, lowerExpr, lowerExpr_congr _ (w.arrow params) value h]
  | .closure params body _, h => by
    rw [lowerExpr, lowerExpr, lowerStmts_congr _ (w.closure params body) body h]

theorem lowerArg_congr (ss : Scopes) (w : Way) : ∀ a : Arg, AgreeOn t t' (argSites w a) →
    lowerArg ⟨d, t⟩ ss a = lowerArg ⟨d, t'⟩ ss a
  | .plain value, h | .spread value, h => by
    rw [lowerArg, lowerArg, isMulti_congr ss h, lowerExpr_congr ss w value h]

theorem lowerArgs_congr (ss : Scopes) (w : Way) : ∀ args : List Arg,
    AgreeOn t t' (argsSites w args) → lowerArgs ⟨d, t⟩ ss args = lowerArgs ⟨d, t'⟩ ss args
  | [], _ => rfl
  | a :: rest, h => by
    obtain ⟨ha, hrest⟩ := agreeOn_append.mp h
    rw [lowerArgs, lowerArgs, lowerArg_congr ss w a ha, lowerArgs_congr ss w rest hrest]

theorem lowerItems_congr (ss : Scopes) (w : Way) : ∀ args : List Arg,
    AgreeOn t t' (argsSites w args) → lowerItems ⟨d, t⟩ ss args = lowerItems ⟨d, t'⟩ ss args
  | [], _ => rfl
  | a :: rest, h => by
    obtain ⟨ha, hrest⟩ := agreeOn_append.mp h
    rw [lowerItems, lowerItems, lowerArg_congr ss w a ha, lowerItems_congr ss w rest hrest]

theorem lowerField_congr (ss : Scopes) (w : Way) : ∀ f : Field, AgreeOn t t' (fieldSites w f) →
    lowerField ⟨d, t⟩ ss f = lowerField ⟨d, t'⟩ ss f
  | .mk _ value, h => by
    rw [lowerField, lowerField, isMulti_congr ss (e := value) h, lowerExpr_congr ss w value h]

theorem lowerFields_congr (ss : Scopes) (w : Way) : ∀ fields : List Field,
    AgreeOn t t' (fieldsSites w fields) →
      lowerFields ⟨d, t⟩ ss fields = lowerFields ⟨d, t'⟩ ss fields
  | [], _ => rfl
  | f :: rest, h => by
    obtain ⟨hf, hrest⟩ := agreeOn_append.mp h
    rw [lowerFields, lowerFields, lowerField_congr ss w f hf, lowerFields_congr ss w rest hrest]

/-- The lowered form of a statement and the scopes behind it are the same under tables that agree on
the names in it. -/
theorem lowerInner_congr (ss : Scopes) (w : Way) : ∀ s : Stmt, AgreeOn t t' (innerSites w s) →
    lowerInner ⟨d, t⟩ ss s = lowerInner ⟨d, t'⟩ ss s
  | .bind _ _ none _, _ | .result none _, _ | .declare _ _, _ | .typeOnly _, _ | .empty _, _ => rfl
  | .bind _ binding (some init) _, h => by
    rw [lowerInner, lowerInner, lowerExpr_congr ss w init h, declareWith, declareWith,
      isMulti_congr ss (e := init) h]
  | .function name params body _, h => by
    rw [lowerInner, lowerInner, lowerStmts_congr _ (w.function name params body) body h]
  | .assign target value _, h => by
    obtain ⟨htarget, hvalue⟩ := agreeOn_append.mp h
    rw [lowerInner, lowerInner, lowerExpr_congr ss w target htarget, isMulti_congr ss hvalue,
      lowerExpr_congr ss w value hvalue]
  | .forOf binding iterable body _, h => by
    obtain ⟨hiterable, hbody⟩ := agreeOn_append.mp h
    rw [lowerInner, lowerInner, isIterable_congr ss hiterable,
      lowerExpr_congr ss w iterable hiterable,
      lowerInner_congr _ (w.loop binding body) body hbody, loop, loop]
  | .cond test whenTrue whenFalse _, h => by
    obtain ⟨hfirst, hfalse⟩ := agreeOn_append.mp h
    obtain ⟨htest, htrue⟩ := agreeOn_append.mp hfirst
    rw [lowerInner, lowerInner, lowerExpr_congr ss w test htest,
      lowerInner_congr _ (w.branch whenTrue) whenTrue htrue, lowerElse_congr ss w whenFalse hfalse]
  | .result (some value) _, h => by
    rw [lowerInner, lowerInner, lowerExpr_congr ss w value h]
  | .block body _, h => by
    rw [lowerInner, lowerInner, lowerStmts_congr ss w body h]
  | .expr e, h => by
    rw [lowerInner, lowerInner, lowerExpr_congr ss w e h]

theorem lowerElse_congr (ss : Scopes) (w : Way) : ∀ s : Option Stmt,
    AgreeOn t t' (elseSites w s) → lowerElse ⟨d, t⟩ ss s = lowerElse ⟨d, t'⟩ ss s
  | none, _ | some (.declare _ _), _ | some (.typeOnly _), _ | some (.empty _), _ => rfl
  | some (.cond test whenTrue whenFalse span), h => by
    obtain ⟨hfirst, hfalse⟩ := agreeOn_append.mp h
    obtain ⟨htest, htrue⟩ := agreeOn_append.mp hfirst
    let w' := w.otherwise (.cond test whenTrue whenFalse span)
    rw [lowerElse, lowerElse, lowerExpr_congr ss w' test htest,
      lowerInner_congr _ (w'.branch whenTrue) whenTrue htrue, lowerElse_congr ss w' whenFalse hfalse]
  | some (.bind _ _ _ _), h | some (.function _ _ _ _), h | some (.assign _ _ _), h
  | some (.forOf _ _ _ _), h | some (.result _ _), h | some (.block _ _), h | some (.expr _), h =>
    congrArg (fun p : List Lua.Stmt × Scopes => Lua.Else.otherwise p.1)
      (lowerInner_congr ([] :: ss) (w.otherwise _) _ h)

/-- **The lowered form of statements depends on the meaning of the names in them only.** -/
theorem lowerStmts_congr (ss : Scopes) (w : Way) : ∀ body : List Stmt,
    AgreeOn t t' (stmtsSites w body) → lowerStmts ⟨d, t⟩ ss body = lowerStmts ⟨d, t'⟩ ss body
  | [], _ => rfl
  | s :: rest, h => by
    obtain ⟨hs, hrest⟩ := agreeOn_append.mp h
    rw [lowerStmts_cons, lowerStmts_cons, lowerStmt, lowerStmt,
      lowerInner_congr _ (w.toward s) s hs, lowerInner_congr _ (w.toward s) s hs,
      lowerStmts_congr _ (w.past s) rest hrest]

end

theorem lower_congr {body : List Stmt} (h : AgreeOn t t' (sites body)) :
    lower ⟨d, t⟩ body = lower ⟨d, t'⟩ body :=
  lowerStmts_congr _ (.file body) body h

end LuaSnippet.Lowering
