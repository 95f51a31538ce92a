import LuaSnippet.Proofs.Globals.Mentioned

/-!
# Inspection and mentioned names

What is wrong with a script depends only on what the names in it stand for (`diagnostics_congr`). The
scopes along the way are those of the script itself, so nothing but the lookups has to be compared.
-/

namespace LuaSnippet.Inspect

open Script
open Globals (Table AgreeOn agreeOn_append exprSites_bare)

variable {t t' : Table}

theorem memberFindings_congr {w : Way} (ss : Scopes) {owner : Expr} (property : Ident)
    (h : AgreeOn t t' (exprSites w owner)) :
    memberFindings t ss owner property = memberFindings t' ss owner property := by
  rw [← exprSites_bare] at h
  unfold memberFindings
  split
  next space hspace =>
    rw [hspace] at h
    rw [h.ident]
  · rfl

mutual

theorem exprFindings_congr (ss : Scopes) (w : Way) : ∀ e : Expr, AgreeOn t t' (exprSites w e) →
    exprFindings t ss e = exprFindings t' ss e
  | .number _ _, _ | .string _ _, _ | .bool _ _, _ | .absent _, _ => rfl
  | .ident id, h => by
    rw [exprFindings, exprFindings, nameFindings, nameFindings, h.ident]
  | .array elements _, h => argsFindings_congr ss w elements h
  | .object fields _, h => fieldsFindings_congr ss w fields h
  | .call callee args span, h => by
    obtain ⟨hparts, -⟩ := agreeOn_append.mp h
    obtain ⟨hcallee, hargs⟩ := agreeOn_append.mp hparts
    rw [exprFindings, exprFindings, exprFindings_congr ss w callee hcallee,
      argsFindings_congr ss w args hargs, callFindings, callFindings, hcallee.overloads?]
  | .member owner property, h => by
    have howner := (agreeOn_append.mp h).1
    rw [exprFindings, exprFindings, exprFindings_congr ss w owner howner,
      memberFindings_congr ss property howner]
  | .nonNull inner, h => exprFindings_congr ss w inner h
  | .paren inner _, h => exprFindings_congr ss w inner h
  | .unary _ operand _, h => exprFindings_congr ss w operand h
  | .binary _ lhs rhs, h => by
    obtain ⟨hlhs, hrhs⟩ := agreeOn_append.mp h
    rw [exprFindings, exprFindings, exprFindings_congr ss w lhs hlhs,
      exprFindings_congr ss w rhs hrhs]
  | .arrow params value _, h => exprFindings_congr _ (w.arrow params) value h
  | .closure params body _, h => by
    rw [exprFindings, exprFindings]
    rw [stmtsWalk_congr _ (w.closure params body) body h]

theorem argFindings_congr (ss : Scopes) (w : Way) : ∀ a : Arg, AgreeOn t t' (argSites w a) →
    argFindings t ss a = argFindings t' ss a
  | .plain value, h => exprFindings_congr ss w value h
  | .spread value, h => exprFindings_congr ss w value h

theorem argsFindings_congr (ss : Scopes) (w : Way) : ∀ args : List Arg,
    AgreeOn t t' (argsSites w args) → argsFindings t ss args = argsFindings t' ss args
  | [], _ => rfl
  | a :: rest, h => by
    obtain ⟨ha, hrest⟩ := agreeOn_append.mp h
    rw [argsFindings, argsFindings, argFindings_congr ss w a ha, argsFindings_congr ss w rest hrest]

theorem fieldFindings_congr (ss : Scopes) (w : Way) : ∀ f : Field, AgreeOn t t' (fieldSites w f) →
    fieldFindings t ss f = fieldFindings t' ss f
  | .mk _ value, h => exprFindings_congr ss w value h

theorem fieldsFindings_congr (ss : Scopes) (w : Way) : ∀ fields : List Field,
    AgreeOn t t' (fieldsSites w fields) → fieldsFindings t ss fields = fieldsFindings t' ss fields
  | [], _ => rfl
  | f :: rest, h => by
    obtain ⟨hf, hrest⟩ := agreeOn_append.mp h
    rw [fieldsFindings, fieldsFindings, fieldFindings_congr ss w f hf,
      fieldsFindings_congr ss w rest hrest]

theorem optionFindings_congr (ss : Scopes) (w : Way) : ∀ e : Option Expr,
    AgreeOn t t' (optionSites w e) → optionFindings t ss e = optionFindings t' ss e
  | none, _ => rfl
  | some e, h => exprFindings_congr ss w e h

/-- What is wrong with a statement and what is declared behind it are the same under tables that agree
on the names in it. -/
theorem innerWalk_congr (ss : Scopes) (w : Way) : ∀ s : Stmt, AgreeOn t t' (innerSites w s) →
    innerWalk t ss s = innerWalk t' ss s
  | .bind _ _ init _, h => by
    rw [innerWalk, innerWalk, optionFindings_congr ss w init h]
  | .function name params body _, h => by
    rw [innerWalk, innerWalk]
    rw [stmtsWalk_congr _ (w.function name params body) body h]
  | .assign target value _, h => by
    obtain ⟨htarget, hvalue⟩ := agreeOn_append.mp h
    rw [innerWalk, innerWalk, exprFindings_congr ss w target htarget,
      exprFindings_congr ss w value hvalue]
  | .forOf binding iterable body _, h => by
    obtain ⟨hiterable, hbody⟩ := agreeOn_append.mp h
    rw [innerWalk, innerWalk]
    rw [exprFindings_congr ss w iterable hiterable,
      innerWalk_congr _ (w.loop binding body) body hbody]
  | .cond test whenTrue whenFalse _, h => by
    obtain ⟨hfirst, hfalse⟩ := agreeOn_append.mp h
    obtain ⟨htest, htrue⟩ := agreeOn_append.mp hfirst
    rw [innerWalk, innerWalk]
    rw [exprFindings_congr ss w test htest, innerWalk_congr _ (w.branch whenTrue) whenTrue htrue,
      elseFindings_congr ss w whenFalse hfalse]
  | .result value _, h => by
    rw [innerWalk, innerWalk, optionFindings_congr ss w value h]
  | .block body _, h => by
    rw [innerWalk, innerWalk, stmtsWalk_congr ss w body h]
  | .expr e, h => by
    rw [innerWalk, innerWalk, exprFindings_congr ss w e h]
  | .declare _ _, _ | .typeOnly _, _ | .empty _, _ => rfl

theorem elseFindings_congr (ss : Scopes) (w : Way) : ∀ s : Option Stmt,
    AgreeOn t t' (elseSites w s) → elseFindings t ss s = elseFindings t' ss s
  | none, _ => rfl
  | some s, h => by
    rw [elseFindings, elseFindings]
    rw [innerWalk_congr _ (w.otherwise s) s h]

/-- **The inspection of statements depends on the meaning of the names in them only.** -/
theorem stmtsWalk_congr (ss : Scopes) (w : Way) : ∀ body : List Stmt,
    AgreeOn t t' (stmtsSites w body) → stmtsWalk t ss body = stmtsWalk t' ss body
  | [], _ => rfl
  | s :: rest, h => by
    obtain ⟨hs, hrest⟩ := agreeOn_append.mp h
    rw [stmtsWalk, stmtsWalk]
    rw [innerWalk_congr _ (w.toward s) s hs, stmtsWalk_congr _ (w.past s) rest hrest]

end

theorem diagnostics_congr (f : File) (h : AgreeOn t t' (sites f.statements)) :
    diagnostics f t = diagnostics f t' := by
  rw [diagnostics, diagnostics, findings, findings, stmtsWalk_congr _ (.file f.statements) _ h]

end LuaSnippet.Inspect
