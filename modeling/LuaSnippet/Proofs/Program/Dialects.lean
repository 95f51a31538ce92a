import LuaSnippet.Proofs.Lowering.Delivery
import LuaSnippet.Proofs.Lowering.Names
import LuaSnippet.Proofs.Program.Reported

/-!
# What dialects have in common

Lowering asks for the dialect at two kinds of places: at operations on bits, which are operators or
calls of a library, and where the values of a table are taken, for which the function has two names. So
a script without operations on bits has one Lua text for Lua 5.1 and LuaJIT, and one for Lua 5.2 and 5.3
(`artifacts_alike`); and if whatever takes several values is given several values, all four are one.
-/

namespace LuaSnippet.Lowering

open Script (Phrase Occurrence Expr Arg Field Stmt Binding Way exprOccurrences argOccurrences
  argsOccurrences fieldOccurrences fieldsOccurrences innerOccurrences elseOccurrences
  stmtsOccurrences occurrences)

/-- Whether some arguments or elements are spread only where they give several values. -/
def spreadsMulti (st : Setting) (ss : Scopes) (args : List Arg) : Bool :=
  args.all fun a => !a.isSpread || isMulti st ss a.value

/-- Whether a phrase takes several values only from calls that give them: what is spread and what a
pattern is declared with are calls that give several values, and a loop that binds a pattern goes over a
call that gives an iterator. -/
def takesGiven (st : Setting) (o : Occurrence) : Bool :=
  match o.phrase with
  | .expr (.array args _) | .expr (.call _ args _) => spreadsMulti st (scopesAt o.way) args
  | .stmt (.bind _ (.pattern _) (some init) _) => isMulti st (scopesAt o.way) init
  | .stmt (.forOf (.pattern _) iterable _ _) => isIterable st (scopesAt o.way) iterable
  | _ => true

/-- Whether a phrase is nothing that two dialects lower differently. -/
structure FitsBoth (g : Globals.Table) (d d' : Dialect) (o : Occurrence) : Prop where
  bits : o.phrase.isOnBits = false
  taken : unpackBuiltin d = unpackBuiltin d' ∨ takesGiven ⟨d, g⟩ o = true

variable {g : Globals.Table} {d d' : Dialect}

/-! ### Parts of the lowered form -/

theorem bitCall?_eq_none {op : Script.BinaryOp} {lhs rhs : Expr}
    (h : (Phrase.expr (.binary op lhs rhs)).isOnBits = false) (d : Dialect) :
    bitCall? d op = none := by
  rw [Phrase.isOnBits_binary] at h
  rw [bitCall?, h]
  rfl

theorem needsGroup_dialect (d d' : Dialect) {e : Expr} (h : (Phrase.expr e).isOnBits = false)
    (level : Nat) (far : Bool) : needsGroup d e level far = needsGroup d' e level far := by
  have hlevel : loweredLevel d e = loweredLevel d' e := by
    cases e with
    | binary op lhs rhs =>
      rw [loweredLevel, loweredLevel, bitCall?_eq_none h d, bitCall?_eq_none h d']
    | _ => rfl
  rw [needsGroup, needsGroup, hlevel]

theorem lowerUnary_dialect {op : Script.UnaryOp} {operand : Expr} {span : Script.Span}
    (h : (Phrase.expr (.unary op operand span)).isOnBits = false) (group : Bool) (e : Lua.Expr) :
    lowerUnary d op group e = lowerUnary d' op group e := by
  cases op with
  | not | neg => rfl
  | bitNot => cases h

theorem lowerBinary_dialect {op : Script.BinaryOp} {lhs rhs : Expr}
    (h : (Phrase.expr (.binary op lhs rhs)).isOnBits = false)
    (hlhs : (Phrase.expr lhs).isOnBits = false) (hrhs : (Phrase.expr rhs).isOnBits = false)
    (l r : Lua.Expr) : lowerBinary d op lhs rhs l r = lowerBinary d' op lhs rhs l r := by
  simp only [lowerBinary, bitCall?_eq_none h, needsGroup_dialect d d' hlhs,
    needsGroup_dialect d d' hrhs]

theorem spreadUnless_dialect {multi : Bool}
    (h : unpackBuiltin d = unpackBuiltin d' ∨ multi = true) (e : Lua.Expr) :
    spreadUnless d multi e = spreadUnless d' multi e := by
  rcases h with h | rfl
  · rw [spreadUnless, spreadUnless, unpack, unpack, h]
  · rfl

theorem declareWith_dialect {ss : Scopes} {b : Binding} {init : Expr}
    (h : unpackBuiltin d = unpackBuiltin d' ∨ isPattern b = false ∨ isMulti ⟨d, g⟩ ss init = true)
    (e : Lua.Expr) : declareWith ⟨d, g⟩ ss b init e = declareWith ⟨d', g⟩ ss b init e := by
  have hmulti : isMulti ⟨d', g⟩ ss init = isMulti ⟨d, g⟩ ss init := rfl
  simp only [declareWith, hmulti]
  cases hpattern : isPattern b with
  | false => rfl
  | true =>
    have hvalues : spreadUnless d (isMulti ⟨d, g⟩ ss init) e =
        spreadUnless d' (isMulti ⟨d, g⟩ ss init) e :=
      spreadUnless_dialect (h.imp_right (by simp [hpattern])) e
    simp only [hvalues]

theorem loop_dialect {b : Binding} {iterable : Bool}
    (h : unpackBuiltin d = unpackBuiltin d' ∨ isPattern b = false ∨ iterable = true)
    (e : Lua.Expr) (body : List Lua.Stmt) :
    loop ⟨d, g⟩ b iterable e body = loop ⟨d', g⟩ b iterable e body := by
  cases iterable with
  | true => rfl
  | false =>
    have hhead : loopHead d b = loopHead d' b := by
      rw [loopHead, loopHead]
      cases hpattern : isPattern b with
      | false => rfl
      | true =>
        have hname : unpackBuiltin d = unpackBuiltin d' := by simpa [hpattern] using h
        simp only [unpack, hname]
    simp only [loop, hhead]

theorem spreadsMulti_cons {st : Setting} {ss : Scopes} {a : Arg} {rest : List Arg}
    (h : unpackBuiltin d = unpackBuiltin d' ∨ spreadsMulti st ss (a :: rest) = true) :
    (unpackBuiltin d = unpackBuiltin d' ∨ a.isSpread = false ∨ isMulti st ss a.value = true) ∧
      (unpackBuiltin d = unpackBuiltin d' ∨ spreadsMulti st ss rest = true) := by
  rcases h with h | h
  · exact ⟨.inl h, .inl h⟩
  · simp only [spreadsMulti, List.all_cons, Bool.and_eq_true, Bool.or_eq_true,
      Bool.not_eq_true'] at h
    exact ⟨.inr h.1, .inr h.2⟩

/-! ### The whole lowered form -/

/-- Whether nothing of what occurs is lowered differently by two dialects. -/
def FitAll (g : Globals.Table) (d d' : Dialect) (os : List Occurrence) : Prop :=
  ∀ o ∈ os, FitsBoth g d d' o

theorem fitAll_cons {o : Occurrence} {os : List Occurrence} :
    FitAll g d d' (o :: os) ↔ FitsBoth g d d' o ∧ FitAll g d d' os :=
  List.forall_mem_cons

theorem fitAll_append {os ps : List Occurrence} :
    FitAll g d d' (os ++ ps) ↔ FitAll g d d' os ∧ FitAll g d d' ps :=
  List.forall_mem_append

theorem FitAll.bits_self {w : Way} {e : Expr} (h : FitAll g d d' (exprOccurrences w e)) :
    (Phrase.expr e).isOnBits = false := by
  have hall : exprOccurrences w e = (⟨.expr e, w⟩ : Occurrence) :: _ := Occurrence.all_eq ⟨.expr e, w⟩
  rw [hall] at h
  exact (fitAll_cons.mp h).1.bits

mutual

theorem lowerExpr_dialect : ∀ (e : Expr) (w : Way), FitAll g d d' (exprOccurrences w e) →
    lowerExpr ⟨d, g⟩ (scopesAt w) e = lowerExpr ⟨d', g⟩ (scopesAt w) e
  | .number _ _, _, _ | .string _ _, _, _ | .bool _ _, _, _ | .absent _, _, _ | .ident _, _, _ => rfl
  | .array elements _, w, h => by
    obtain ⟨hself, helements⟩ := fitAll_cons.mp h
    rw [lowerExpr, lowerExpr, lowerItems_dialect elements w hself.taken helements]
  | .object fields _, w, h => by
    rw [lowerExpr, lowerExpr, lowerFields_dialect fields w (fitAll_cons.mp h).2]
  | .call callee args _, w, h => by
    obtain ⟨hself, hparts⟩ := fitAll_cons.mp h
    obtain ⟨hcallee, hargs⟩ := fitAll_append.mp hparts
    rw [lowerExpr, lowerExpr, lowerExpr_dialect callee w hcallee,
      lowerArgs_dialect args w hself.taken hargs]
  | .member owner _, w, h => by
    rw [lowerExpr, lowerExpr, lowerExpr_dialect owner w (fitAll_cons.mp h).2]
  | .nonNull inner, w, h => lowerExpr_dialect inner w (fitAll_cons.mp h).2
  | .paren inner _, w, h => by
    rw [lowerExpr, lowerExpr, lowerExpr_dialect inner w (fitAll_cons.mp h).2]
  | .unary op operand _, w, h => by
    obtain ⟨hself, hoperand⟩ := fitAll_cons.mp h
    rw [lowerExpr, lowerExpr, lowerExpr_dialect operand w hoperand,
      needsGroup_dialect d d' hoperand.bits_self, lowerUnary_dialect hself.bits]
  | .binary op lhs rhs, w, h => by
    obtain ⟨hself, hparts⟩ := fitAll_cons.mp h
    obtain ⟨hlhs, hrhs⟩ := fitAll_append.mp hparts
    rw [lowerExpr, lowerExpr, lowerExpr_dialect lhs w hlhs, lowerExpr_dialect rhs w hrhs,
      lowerBinary_dialect hself.bits hlhs.bits_self hrhs.bits_self]
  | .arrow params value _, w, h => by
    have hvalue := lowerExpr_dialect value (w.arrow params) (fitAll_cons.mp h).2
    rw [scopesAt] at hvalue
    rw [lowerExpr, lowerExpr, hvalue]
  | .closure params body _, w, h => by
    have hbody := lowerStmts_dialect body (w.closure params body) (fitAll_cons.mp h).2
    rw [scopesAt] at hbody
    rw [lowerExpr, lowerExpr, hbody]

theorem lowerArg_dialect : ∀ (a : Arg) (w : Way),
    (unpackBuiltin d = unpackBuiltin d' ∨ a.isSpread = false ∨
      isMulti ⟨d, g⟩ (scopesAt w) a.value = true) → FitAll g d d' (argOccurrences w a) →
    lowerArg ⟨d, g⟩ (scopesAt w) a = lowerArg ⟨d', g⟩ (scopesAt w) a
  | .plain value, w, _, h => by
    rw [lowerArg, lowerArg, lowerExpr_dialect value w h]
    rfl
  | .spread value, w, htaken, h => by
    rw [lowerArg, lowerArg, lowerExpr_dialect value w h]
    exact spreadUnless_dialect (htaken.imp_right fun hmulti => hmulti.resolve_left nofun) _

theorem lowerArgs_dialect : ∀ (args : List Arg) (w : Way),
    (unpackBuiltin d = unpackBuiltin d' ∨ spreadsMulti ⟨d, g⟩ (scopesAt w) args = true) →
    FitAll g d d' (argsOccurrences w args) →
    lowerArgs ⟨d, g⟩ (scopesAt w) args = lowerArgs ⟨d', g⟩ (scopesAt w) args
  | [], _, _, _ => rfl
  | a :: rest, w, htaken, h => by
    obtain ⟨hfirst, hothers⟩ := spreadsMulti_cons htaken
    obtain ⟨ha, hrest⟩ := fitAll_append.mp h
    rw [lowerArgs, lowerArgs, lowerArg_dialect a w hfirst ha,
      lowerArgs_dialect rest w hothers hrest]

theorem lowerItems_dialect : ∀ (args : List Arg) (w : Way),
    (unpackBuiltin d = unpackBuiltin d' ∨ spreadsMulti ⟨d, g⟩ (scopesAt w) args = true) →
    FitAll g d d' (argsOccurrences w args) →
    lowerItems ⟨d, g⟩ (scopesAt w) args = lowerItems ⟨d', g⟩ (scopesAt w) args
  | [], _, _, _ => rfl
  | a :: rest, w, htaken, h => by
    obtain ⟨hfirst, hothers⟩ := spreadsMulti_cons htaken
    obtain ⟨ha, hrest⟩ := fitAll_append.mp h
    rw [lowerItems, lowerItems, lowerArg_dialect a w hfirst ha,
      lowerItems_dialect rest w hothers hrest]

theorem lowerField_dialect : ∀ (f : Field) (w : Way), FitAll g d d' (fieldOccurrences w f) →
    lowerField ⟨d, g⟩ (scopesAt w) f = lowerField ⟨d', g⟩ (scopesAt w) f
  | .mk _ value, w, h => by
    rw [lowerField, lowerField, lowerExpr_dialect value w h]
    rfl

theorem lowerFields_dialect : ∀ (fields : List Field) (w : Way),
    FitAll g d d' (fieldsOccurrences w fields) →
    lowerFields ⟨d, g⟩ (scopesAt w) fields = lowerFields ⟨d', g⟩ (scopesAt w) fields
  | [], _, _ => rfl
  | f :: rest, w, h => by
    obtain ⟨hf, hrest⟩ := fitAll_append.mp h
    rw [lowerFields, lowerFields, lowerField_dialect f w hf, lowerFields_dialect rest w hrest]

theorem lowerInner_dialect : ∀ (s : Stmt) (w : Way), FitAll g d d' (innerOccurrences w s) →
    (lowerInner ⟨d, g⟩ (scopesAt w) s).1 = (lowerInner ⟨d', g⟩ (scopesAt w) s).1
  | .bind _ _ none _, _, _ | .result none _, _, _ | .declare _ _, _, _ | .typeOnly _, _, _
  | .empty _, _, _ => rfl
  | .bind _ binding (some init) _, w, h => by
    obtain ⟨hself, hinit⟩ := fitAll_cons.mp h
    have htaken : unpackBuiltin d = unpackBuiltin d' ∨ isPattern binding = false ∨
        isMulti ⟨d, g⟩ (scopesAt w) init = true := by
      cases binding with
      | single name => exact .inr (.inl rfl)
      | pattern names => exact hself.taken.imp_right .inr
    rw [lowerInner, lowerInner, lowerExpr_dialect init w hinit, declareWith_dialect htaken]
  | .function name params body _, w, h => by
    have hbody := lowerStmts_dialect body (w.function name params body) (fitAll_cons.mp h).2
    rw [scopesAt] at hbody
    rw [lowerInner, lowerInner, hbody]
  | .assign target value _, w, h => by
    obtain ⟨htarget, hvalue⟩ := fitAll_append.mp (fitAll_cons.mp h).2
    rw [lowerInner, lowerInner, lowerExpr_dialect target w htarget, lowerExpr_dialect value w hvalue]
    rfl
  | .forOf binding iterable body _, w, h => by
    obtain ⟨hself, hparts⟩ := fitAll_cons.mp h
    obtain ⟨hiterable, hbody⟩ := fitAll_append.mp hparts
    have htaken : unpackBuiltin d = unpackBuiltin d' ∨ isPattern binding = false ∨
        isIterable ⟨d, g⟩ (scopesAt w) iterable = true := by
      cases binding with
      | single name => exact .inr (.inl rfl)
      | pattern names => exact hself.taken.imp_right .inr
    have hinner := lowerInner_dialect body (w.loop binding body) hbody
    rw [scopesAt] at hinner
    rw [lowerInner, lowerInner, lowerExpr_dialect iterable w hiterable, hinner,
      loop_dialect htaken]
    rfl
  | .cond test whenTrue whenFalse _, w, h => by
    obtain ⟨htest, hbranches⟩ := fitAll_append.mp (fitAll_cons.mp h).2
    obtain ⟨htrue, hfalse⟩ := fitAll_append.mp hbranches
    have hinner := lowerInner_dialect whenTrue (w.branch whenTrue) htrue
    rw [scopesAt] at hinner
    rw [lowerInner, lowerInner, lowerExpr_dialect test w htest, hinner,
      lowerElse_dialect whenFalse w hfalse]
  | .result (some value) _, w, h => by
    rw [lowerInner, lowerInner, lowerExpr_dialect value w (fitAll_cons.mp h).2]
  | .block body _, w, h => lowerStmts_dialect body w (fitAll_cons.mp h).2
  | .expr e, w, h => by
    rw [lowerInner, lowerInner, lowerExpr_dialect e w (fitAll_cons.mp h).2]

theorem lowerElse_dialect : ∀ (rest : Option Stmt) (w : Way),
    FitAll g d d' (elseOccurrences w rest) →
    lowerElse ⟨d, g⟩ (scopesAt w) rest = lowerElse ⟨d', g⟩ (scopesAt w) rest
  | none, _, _ => rfl
  | some (.cond test whenTrue whenFalse span), w, h => by
    obtain ⟨htest, hbranches⟩ := fitAll_append.mp (fitAll_cons.mp h).2
    obtain ⟨htrue, hfalse⟩ := fitAll_append.mp hbranches
    let w' := w.otherwise (.cond test whenTrue whenFalse span)
    have htest' : lowerExpr ⟨d, g⟩ (scopesAt w) test = lowerExpr ⟨d', g⟩ (scopesAt w) test :=
      lowerExpr_dialect test w' htest
    have htrue' : (lowerInner ⟨d, g⟩ ([] :: scopesAt w) whenTrue).1 =
        (lowerInner ⟨d', g⟩ ([] :: scopesAt w) whenTrue).1 :=
      lowerInner_dialect whenTrue (w'.branch whenTrue) htrue
    have hfalse' : lowerElse ⟨d, g⟩ (scopesAt w) whenFalse =
        lowerElse ⟨d', g⟩ (scopesAt w) whenFalse := lowerElse_dialect whenFalse w' hfalse
    rw [lowerElse, lowerElse, htest', htrue', hfalse']
  | some (.bind _ _ _ _), w, h | some (.function _ _ _ _), w, h | some (.assign _ _ _), w, h
  | some (.forOf _ _ _ _), w, h | some (.result _ _), w, h | some (.block _ _), w, h
  | some (.expr _), w, h | some (.declare _ _), w, h | some (.typeOnly _), w, h
  | some (.empty _), w, h =>
    congrArg Lua.Else.otherwise (lowerInner_dialect _ (w.otherwise _) h)

theorem lowerStmts_dialect : ∀ (body : List Stmt) (w : Way),
    FitAll g d d' (stmtsOccurrences w body) →
    lowerStmts ⟨d, g⟩ (scopesAt w) body = lowerStmts ⟨d', g⟩ (scopesAt w) body
  | [], _, _ => rfl
  | s :: rest, w, h => by
    obtain ⟨hs, hrest⟩ := fitAll_append.mp h
    rw [lowerStmts_cons, lowerStmts_cons, lowerStmt_snd, lowerStmt_snd, lowerStmt_fst, lowerStmt_fst,
      lowerInner_dialect s (w.toward s) hs, lowerStmts_dialect rest (w.past s) hrest]

end

/-- **The lowered form of a script depends on the dialect only where something that occurs in the script
is lowered differently.** -/
theorem lower_dialect {body : List Stmt} (h : FitAll g d d' (occurrences body)) :
    lower ⟨d, g⟩ body = lower ⟨d', g⟩ body :=
  lowerStmts_dialect body (.file body) h

end LuaSnippet.Lowering

namespace LuaSnippet.Program

open Script (Phrase File occurrences)
open Lowering (takesGiven)

variable {p : Program} {f : File}

theorem isOnBits_of_isSignedShift {x : Phrase} (h : x.isSignedShift = true) : x.isOnBits = true := by
  unfold Phrase.isSignedShift at h
  split at h
  · rfl
  · cases h

theorem lacking_eq_nil (p : Program)
    (hbits : ∀ o ∈ occurrences f.statements, o.phrase.isOnBits = false) : p.lacking f = [] := by
  have hlack : ∀ o ∈ occurrences f.statements,
      Lowering.phraseLack p.options.dialect o.phrase = none := by
    intro o ho
    have hbits := hbits o ho
    have hshift : o.phrase.isSignedShift = false := by
      cases h : o.phrase.isSignedShift with
      | false => rfl
      | true => rw [isOnBits_of_isSignedShift h] at hbits; cases hbits
    cases p.options.dialect <;> simp [Lowering.phraseLack, hbits, hshift]
  rw [lacking, Lowering.reports_eq_nil hlack]
  rfl

theorem artifact_dialect {d d' : Dialect}
    (h : Lowering.FitAll p.globals d d' (occurrences f.statements)) :
    (p.targeting d).artifact f = (p.targeting d').artifact f := by
  have hlua : (p.targeting d).luaText f = (p.targeting d').luaText f :=
    congrArg (Lua.stmtsText p.newLine 0) (Lowering.lower_dialect h)
  rw [artifact, artifact, hlua]
  rfl

/-- **Dialects differ only where they have to.** A file without operations on bits lacks nothing in any
dialect, and it gives one artifact for Lua 5.1 and LuaJIT and one for Lua 5.2 and 5.3. If what it spreads
or takes apart by a pattern is given as several values, it gives one artifact for all dialects. -/
theorem artifacts_alike (p : Program) (f : File)
    (hbits : ∀ o ∈ occurrences f.statements, o.phrase.isOnBits = false) :
    (p.targeting .lua51).artifact f = (p.targeting .luaJit).artifact f ∧
      (p.targeting .lua52).artifact f = (p.targeting .lua53).artifact f ∧
      (∀ d, (p.targeting d).lacking f = []) ∧
      ((∀ o ∈ occurrences f.statements, takesGiven p.setting o = true) →
        ∀ d d', (p.targeting d).artifact f = (p.targeting d').artifact f) := by
  refine ⟨?_, ?_, fun d => lacking_eq_nil _ hbits, fun hgiven d d' => ?_⟩
  · exact artifact_dialect fun o ho => ⟨hbits o ho, .inl rfl⟩
  · exact artifact_dialect fun o ho => ⟨hbits o ho, .inl rfl⟩
  · exact artifact_dialect fun o ho => ⟨hbits o ho, .inr (hgiven o ho)⟩

/-- A source that takes several values from calls only. -/
@[irreducible]
def rowsFile : File :=
  File.read "rows.ts" "const [a, b] = pair();\nfor (const [c] of rows()) \x7b print(a, ...pair()); \x7d" .es5

/-- The program of this source, with the functions it calls declared. -/
def rowsProgram : Program :=
  ⟨⟨.es5, .lua53, true, true⟩, ["rows.ts"], [rowsFile], Lowering.rowsSetting.globals, "\n", []⟩

/-- The text of this source is the same for all dialects. -/
theorem rowsFile_artifacts_alike :
    (∀ o ∈ occurrences rowsFile.statements,
      o.phrase.isOnBits = false ∧ takesGiven rowsProgram.setting o = true) ∧
    (rowsProgram.artifact rowsFile).lua =
      "local a, b = pair()\nfor c in rows() do\n    print(a, pair())\nend\n" ∧
    ∀ d, (rowsProgram.targeting d).artifact rowsFile = rowsProgram.artifact rowsFile := by
  have hall : ∀ o ∈ occurrences rowsFile.statements,
      o.phrase.isOnBits = false ∧ takesGiven rowsProgram.setting o = true := by decide +kernel
  obtain ⟨-, -, -, halike⟩ := artifacts_alike rowsProgram rowsFile fun o ho => (hall o ho).1
  exact ⟨hall, by decide +kernel, fun d => halike (fun o ho => (hall o ho).2) d .lua53⟩

end LuaSnippet.Program
