import Mathlib.Data.List.Forall2
import LuaSnippet.Proofs.Script.Site
import LuaSnippet.Proofs.Lua.Locals
import LuaSnippet.Lowering.Lower

/-!
# Names in the lowered script

Lowering takes the names of a script over one by one, and goes along the ways to them with scopes of
its own (`scopesAt`). What is declared on the way to a name is a Lua local in force where the name
stands in the Lua tree (`names_lower`).
-/

namespace LuaSnippet.Script

/-- The names of the parameters that Lua has: of several rest parameters only the first is packed. -/
def givenNames (params : List Param) : List String :=
  ((params.find? fun p => p.isRest).toList ++ params.filter fun p => !p.isRest).map (·.name)

/-- The names that a statement declares for those behind it. -/
def declaredNames : Stmt → List String
  | .bind _ binding _ _ => binding.names.map (·.name)
  | .function name _ _ _ => [name.name]
  | _ => []

/-- The names that have been declared at the end of a way: the parameters and the own names of the
functions around, the names of the loops around, and the variables and functions passed. -/
def Way.declared : Way → List String
  | file _ => []
  | arrow w params => givenNames params ++ w.declared
  | closure w params _ => givenNames params ++ w.declared
  | function w name params _ => givenNames params ++ name.name :: w.declared
  | loop w binding _ => binding.names.map (·.name) ++ w.declared
  | branch w _ => w.declared
  | otherwise w _ => w.declared
  | block w _ => w.declared
  | past w s => declaredNames s ++ w.declared

end LuaSnippet.Script

namespace LuaSnippet.Lowering

open Script (Expr Arg Field Stmt Ident Param Binding Way namesAt)
open Lua (Use nameOf exprUses exprsUses fieldUses fieldsUses stmtUses stmtsUses elseUses)

/-! ### Scopes along a way -/

def scopesAt : Way → Scopes
  | .file _ => [[]]
  | .arrow w params => paramNames params :: scopesAt w
  | .closure w params _ => paramNames params :: scopesAt w
  | .function w name params _ => paramNames params :: (scopesAt w).declare name.name
  | .loop w binding _ => [] :: Scopes.declareAll ([] :: scopesAt w) (bindingNames binding)
  | .branch w _ => [] :: scopesAt w
  | .otherwise w (.cond _ _ _ _) => scopesAt w
  | .otherwise w _ => [] :: scopesAt w
  | .block w _ => [] :: scopesAt w
  | .past w (.bind _ binding _ _) => (scopesAt w).declareAll (bindingNames binding)
  | .past w (.function name _ _ _) => (scopesAt w).declare name.name
  | .past w _ => scopesAt w

theorem lowerStmt_snd (st : Setting) (w : Way) (s : Stmt) :
    (lowerStmt st (scopesAt w) s).2 = scopesAt (w.past s) := by
  cases s with
  | bind kind binding init span => cases init <;> rfl
  | result value span => cases value <;> rfl
  | _ => rfl

theorem lowerStmt_fst (st : Setting) (w : Way) (s : Stmt) :
    (lowerStmt st (scopesAt w) s).1 =
      if isBlock s then [.block (lowerInner st (scopesAt (w.toward s)) s).1]
      else (lowerInner st (scopesAt (w.toward s)) s).1 := by
  cases s <;> rfl

/-! ### Locals along a way -/

/-- The Lua names of some names are among some locals. -/
def Covers (names locals : List String) : Prop :=
  ∀ x ∈ names, nameOf x ∈ locals

variable {names locals : List String}

theorem Covers.mono {locals' : List String} (hnames : Covers names locals)
    (hlocals : ∀ x ∈ locals, x ∈ locals') : Covers names locals' :=
  fun x hx => hlocals _ (hnames x hx)

theorem Covers.append (hnames : Covers names locals) (first : List String) :
    Covers (first ++ names) (first.map nameOf ++ locals) := by
  intro x hx
  rcases List.mem_append.mp hx with hx | hx
  · exact List.mem_append_left _ (List.mem_map_of_mem hx)
  · exact List.mem_append_right _ (hnames x hx)

theorem paramNames_lowerParam (params : List Param) :
    Lua.paramNames (params.map lowerParam) =
      (params.filter fun p => !p.isRest).map fun p => nameOf p.name := by
  induction params with
  | nil => rfl
  | cons p rest ih =>
    rw [Lua.paramNames] at ih ⊢
    rcases hrest : p.isRest with _ | _ <;> simp [lowerParam, hrest, ih]

theorem map_nameOf_givenNames (params : List Param) :
    (restName? params).toList ++ Lua.paramNames (params.map lowerParam) =
      (Script.givenNames params).map nameOf := by
  rw [paramNames_lowerParam, restName?, Script.givenNames]
  simp only [Option.toList_map, List.map_append, List.map_map]
  rfl

theorem Covers.params (hnames : Covers names locals) (params : List Param) :
    Covers (Script.givenNames params ++ names)
      ((restName? params).toList ++ (Lua.paramNames (params.map lowerParam) ++ locals)) := by
  rw [← List.append_assoc, map_nameOf_givenNames]
  exact hnames.append _

theorem behind_loop (st : Setting) (b : Binding) (iterable : Bool) (e : Lua.Expr)
    (body : List Lua.Stmt) : (loop st b iterable e body).behind locals = locals := by
  rw [loop]
  split <;> rfl

/-- A lowered statement declares the Lua names of what the statement declares; an expression that is
evaluated for nothing declares a name of its own. -/
theorem behind_lowerStmt (st : Setting) (ss : Scopes) (s : Stmt) (locals : List String) :
    ∃ own, (∀ x ∈ own, x = "____") ∧ (lowerStmt st ss s).1.foldl Lua.Stmt.behind locals =
      own ++ ((Script.declaredNames s).map nameOf ++ locals) := by
  cases s with
  | bind kind binding init span => cases init <;> exact ⟨[], nofun, rfl⟩
  | forOf binding iterable body span => exact ⟨[], nofun, behind_loop st binding _ _ _⟩
  | result value span => cases value <;> exact ⟨[], nofun, rfl⟩
  | expr e =>
    have hlowered : (lowerStmt st ss (.expr e)).1 =
        [if isCall e then .call (lowerExpr st ss e) else .discard (lowerExpr st ss e)] := rfl
    rw [hlowered]
    cases isCall e with
    | true => exact ⟨[], nofun, rfl⟩
    | false => exact ⟨["____"], by simp, rfl⟩
  | _ => exact ⟨[], nofun, rfl⟩

theorem Covers.past {w : Way} (hw : Covers w.declared locals) (st : Setting) (ss : Scopes)
    (s : Stmt) : Covers (w.past s).declared ((lowerStmt st ss s).1.foldl Lua.Stmt.behind locals) := by
  obtain ⟨own, -, hbehind⟩ := behind_lowerStmt st ss s locals
  rw [hbehind]
  exact (hw.append (Script.declaredNames s)).mono fun x hx => List.mem_append_right _ hx

/-! ### Uses of the parts of a lowered script -/

theorem exprUses_groupIf (group : Bool) (e : Lua.Expr) :
    exprUses locals (groupIf group e) = exprUses locals e := by
  cases group <;> rfl

theorem exprUses_collectIf (multi : Bool) (e : Lua.Expr) :
    exprUses locals (collectIf multi e) = exprUses locals e := by
  cases multi
  · rfl
  · exact List.append_nil _

theorem exprUses_unpack (d : Dialect) (e : Lua.Expr) :
    exprUses locals (unpack d e) = exprUses locals e :=
  List.append_nil _

theorem exprUses_spreadUnless (d : Dialect) (multi : Bool) (e : Lua.Expr) :
    exprUses locals (spreadUnless d multi e) = exprUses locals e := by
  cases multi
  · exact exprUses_unpack d e
  · rfl

theorem exprUses_lowerUnary (d : Dialect) (op : Script.UnaryOp) (group : Bool) (e : Lua.Expr) :
    exprUses locals (lowerUnary d op group e) = exprUses locals e := by
  cases op with
  | not => exact exprUses_groupIf group e
  | neg => exact (exprUses_groupIf _ _).trans (exprUses_groupIf group e)
  | bitNot =>
    rw [lowerUnary]
    split
    · exact List.append_nil _
    · exact exprUses_groupIf group e

theorem exprUses_lowerBinary (d : Dialect) (op : Script.BinaryOp) (lhs rhs : Expr)
    (l r : Lua.Expr) :
    exprUses locals (lowerBinary d op lhs rhs l r) = exprUses locals l ++ exprUses locals r := by
  rw [lowerBinary]
  split
  · simp [exprUses, exprsUses]
  · simp only [exprUses, exprUses_groupIf]

theorem stmtUses_declareWith (st : Setting) (ss : Scopes) (b : Binding) (init : Expr)
    (e : Lua.Expr) : stmtUses locals (declareWith st ss b init e) = exprUses locals e := by
  simp only [declareWith, stmtUses, Lua.optionUses]
  split
  · exact exprUses_spreadUnless _ _ _
  · exact exprUses_collectIf _ _

theorem stmtsUses_packRest (params : List Param) (body : List Lua.Stmt) :
    stmtsUses locals (packRest params ++ body) =
      stmtsUses ((restName? params).toList ++ locals) body := by
  rw [packRest]
  cases restName? params <;> rfl

theorem stmtUses_loop (st : Setting) (locals : List String) (b : Binding) (iterable : Bool)
    (e : Lua.Expr) (body : List Lua.Stmt) : ∃ locals', (∀ x ∈ (bindingNames b).map nameOf ++ locals, x ∈ locals') ∧
      stmtUses locals (loop st b iterable e body) =
        exprUses locals e ++ stmtsUses locals' body := by
  cases iterable with
  | true => exact ⟨_, fun x hx => hx, rfl⟩
  | false =>
    have hipairs : exprUses locals (.call (.builtin .ipairs) [e]) = exprUses locals e :=
      List.append_nil _
    cases b with
    | single name =>
      refine ⟨"____" :: ((bindingNames (.single name)).map nameOf ++ locals),
        fun x hx => List.mem_cons_of_mem _ hx, ?_⟩
      exact congrArg (· ++ _) hipairs
    | pattern names =>
      refine ⟨(bindingNames (.pattern names)).map nameOf ++
        (["____", Lua.Builtin.loopValue.text] ++ locals), fun x hx => ?_, congrArg (· ++ _) hipairs⟩
      rcases List.mem_append.mp hx with hx | hx
      · exact List.mem_append_left _ hx
      · exact List.mem_append_right _ (List.mem_append_right _ hx)

/-! ### Names are lowered one by one -/

/-- A name of a script and a name of a Lua tree belong together: the one is the Lua name of the other,
and everything that has been declared on the way to the one is a local where the other stands. -/
def BelongTo (n : Ident × Way) (u : Use) : Prop :=
  u.name = nameOf n.1.name ∧ Covers n.2.declared u.locals

mutual

theorem names_lowerExpr (st : Setting) : ∀ (e : Expr) (w : Way) (locals : List String),
    Covers w.declared locals → List.Forall₂ BelongTo (namesAt (Script.exprSites w e))
      (exprUses locals (lowerExpr st (scopesAt w) e))
  | .number _ _, _, _, _ | .string _ _, _, _, _ | .bool _ _, _, _, _ | .absent _, _, _, _ => .nil
  | .ident id, w, locals, hw => .cons ⟨rfl, hw⟩ .nil
  | .array elements _, w, locals, hw => names_lowerItems st elements w locals hw
  | .object fields _, w, locals, hw => names_lowerFields st fields w locals hw
  | .call callee args span, w, locals, hw => by
    have hcallee := names_lowerExpr st callee w locals hw
    have hargs := names_lowerArgs st args w locals hw
    have hself : namesAt [⟨.call callee args span, w⟩] = [] := rfl
    rw [Script.exprSites, Script.namesAt_append, hself, List.append_nil, Script.namesAt_append,
      lowerExpr, exprUses, exprUses_groupIf]
    exact List.rel_append hcallee hargs
  | .member owner property, w, locals, hw => by
    have howner := names_lowerExpr st owner w locals hw
    have hself : namesAt [⟨.member owner property, w⟩] = [] := rfl
    rw [Script.exprSites, Script.namesAt_append, hself, List.append_nil, lowerExpr, exprUses,
      exprUses_groupIf]
    exact howner
  | .nonNull inner, w, locals, hw | .paren inner _, w, locals, hw =>
    names_lowerExpr st inner w locals hw
  | .unary op operand _, w, locals, hw => by
    rw [lowerExpr, exprUses_lowerUnary]
    exact names_lowerExpr st operand w locals hw
  | .binary op lhs rhs, w, locals, hw => by
    rw [lowerExpr, exprUses_lowerBinary, Script.exprSites, Script.namesAt_append]
    exact List.rel_append (names_lowerExpr st lhs w locals hw) (names_lowerExpr st rhs w locals hw)
  | .arrow params value _, w, locals, hw => by
    rw [lowerExpr, exprUses, List.append_assoc]
    exact names_lowerExpr st value (w.arrow params) _ (hw.params params)
  | .closure params body _, w, locals, hw => by
    rw [lowerExpr, exprUses, stmtsUses_packRest]
    exact names_lowerStmts st body (w.closure params body) _ (hw.params params)

theorem names_lowerArg (st : Setting) : ∀ (a : Arg) (w : Way) (locals : List String),
    Covers w.declared locals → List.Forall₂ BelongTo (namesAt (Script.argSites w a))
      (exprUses locals (lowerArg st (scopesAt w) a))
  | .plain value, w, locals, hw => by
    rw [lowerArg, exprUses_collectIf]
    exact names_lowerExpr st value w locals hw
  | .spread value, w, locals, hw => by
    rw [lowerArg, exprUses_spreadUnless]
    exact names_lowerExpr st value w locals hw

theorem names_lowerArgs (st : Setting) : ∀ (args : List Arg) (w : Way) (locals : List String),
    Covers w.declared locals → List.Forall₂ BelongTo (namesAt (Script.argsSites w args))
      (exprsUses locals (lowerArgs st (scopesAt w) args))
  | [], _, _, _ => .nil
  | a :: rest, w, locals, hw => by
    rw [Script.argsSites, Script.namesAt_append]
    exact List.rel_append (names_lowerArg st a w locals hw) (names_lowerArgs st rest w locals hw)

theorem names_lowerItems (st : Setting) : ∀ (args : List Arg) (w : Way) (locals : List String),
    Covers w.declared locals → List.Forall₂ BelongTo (namesAt (Script.argsSites w args))
      (fieldsUses locals (lowerItems st (scopesAt w) args))
  | [], _, _, _ => .nil
  | a :: rest, w, locals, hw => by
    rw [Script.argsSites, Script.namesAt_append]
    exact List.rel_append (names_lowerArg st a w locals hw) (names_lowerItems st rest w locals hw)

theorem names_lowerField (st : Setting) : ∀ (f : Field) (w : Way) (locals : List String),
    Covers w.declared locals → List.Forall₂ BelongTo (namesAt (Script.fieldSites w f))
      (fieldUses locals (lowerField st (scopesAt w) f))
  | .mk _ value, w, locals, hw => by
    rw [lowerField, fieldUses, exprUses_collectIf]
    exact names_lowerExpr st value w locals hw

theorem names_lowerFields (st : Setting) : ∀ (fields : List Field) (w : Way)
    (locals : List String), Covers w.declared locals →
      List.Forall₂ BelongTo (namesAt (Script.fieldsSites w fields))
        (fieldsUses locals (lowerFields st (scopesAt w) fields))
  | [], _, _, _ => .nil
  | f :: rest, w, locals, hw => by
    rw [Script.fieldsSites, Script.namesAt_append]
    exact List.rel_append (names_lowerField st f w locals hw)
      (names_lowerFields st rest w locals hw)

theorem names_lowerInner (st : Setting) : ∀ (s : Stmt) (w : Way) (locals : List String),
    Covers w.declared locals → List.Forall₂ BelongTo (namesAt (Script.innerSites w s))
      (stmtsUses locals (lowerInner st (scopesAt w) s).1)
  | .bind _ binding none _, _, _, _ => .nil
  | .bind _ binding (some init) _, w, locals, hw => by
    rw [lowerInner, stmtsUses, stmtUses_declareWith, stmtsUses, List.append_nil]
    exact names_lowerExpr st init w locals hw
  | .function name params body _, w, locals, hw => by
    rw [lowerInner, stmtsUses, stmtUses, stmtsUses_packRest, stmtsUses, List.append_nil]
    exact names_lowerStmts st body (w.function name params body) _
      ((hw.append [name.name]).params params)
  | .assign target value _, w, locals, hw => by
    rw [lowerInner, stmtsUses, stmtUses, exprUses_collectIf, stmtsUses, List.append_nil,
      Script.innerSites, Script.namesAt_append]
    exact List.rel_append (names_lowerExpr st target w locals hw)
      (names_lowerExpr st value w locals hw)
  | .forOf binding iterable body _, w, locals, hw => by
    obtain ⟨locals', hlocals, huses⟩ := stmtUses_loop st locals binding
      (isIterable st (scopesAt w) iterable) (lowerExpr st (scopesAt w) iterable)
      (lowerInner st (scopesAt (w.loop binding body)) body).1
    have hbody : Covers (w.loop binding body).declared locals' :=
      Covers.mono (hw.append (bindingNames binding)) hlocals
    rw [Script.innerSites, Script.namesAt_append, lowerInner, stmtsUses, stmtsUses,
      List.append_nil]
    refine huses ▸ List.rel_append (names_lowerExpr st iterable w locals hw)
      (names_lowerInner st body (w.loop binding body) locals' hbody)
  | .cond test whenTrue whenFalse _, w, locals, hw => by
    rw [lowerInner, stmtsUses, stmtUses, stmtsUses, List.append_nil, Script.innerSites,
      Script.namesAt_append, Script.namesAt_append]
    exact List.rel_append (List.rel_append (names_lowerExpr st test w locals hw)
      (names_lowerInner st whenTrue (w.branch whenTrue) locals hw))
      (names_lowerElse st whenFalse w locals hw)
  | .result none _, _, _, _ => .nil
  | .result (some value) _, w, locals, hw => by
    rw [lowerInner, stmtsUses, stmtUses, stmtsUses, List.append_nil]
    exact names_lowerExpr st value w locals hw
  | .block body _, w, locals, hw => names_lowerStmts st body w locals hw
  | .expr e, w, locals, hw => by
    have he := names_lowerExpr st e w locals hw
    rw [← List.append_nil (exprUses _ _)] at he
    rw [lowerInner]
    cases isCall e <;> exact he
  | .declare _ _, _, _, _ | .typeOnly _, _, _, _ | .empty _, _, _, _ => .nil

theorem names_lowerElse (st : Setting) : ∀ (rest : Option Stmt) (w : Way) (locals : List String),
    Covers w.declared locals → List.Forall₂ BelongTo (namesAt (Script.elseSites w rest))
      (elseUses locals (lowerElse st (scopesAt w) rest))
  | none, _, _, _ => .nil
  | some (.cond test whenTrue whenFalse span), w, locals, hw => by
    have hways : Script.elseSites w (some (.cond test whenTrue whenFalse span)) =
        Script.exprSites (w.otherwise (.cond test whenTrue whenFalse span)) test ++
          Script.innerSites ((w.otherwise (.cond test whenTrue whenFalse span)).branch whenTrue)
            whenTrue ++
          Script.elseSites (w.otherwise (.cond test whenTrue whenFalse span)) whenFalse := rfl
    rw [hways, lowerElse, elseUses, Script.namesAt_append, Script.namesAt_append]
    exact List.rel_append (List.rel_append (names_lowerExpr st test (w.otherwise _) locals hw)
      (names_lowerInner st whenTrue ((w.otherwise _).branch whenTrue) locals hw))
      (names_lowerElse st whenFalse (w.otherwise _) locals hw)
  | some (.bind _ _ _ _), w, locals, hw | some (.function _ _ _ _), w, locals, hw
  | some (.assign _ _ _), w, locals, hw | some (.forOf _ _ _ _), w, locals, hw
  | some (.result _ _), w, locals, hw | some (.block _ _), w, locals, hw
  | some (.expr _), w, locals, hw | some (.declare _ _), w, locals, hw
  | some (.typeOnly _), w, locals, hw | some (.empty _), w, locals, hw =>
    names_lowerInner st _ (w.otherwise _) locals hw

theorem names_lowerStmts (st : Setting) : ∀ (body : List Stmt) (w : Way) (locals : List String),
    Covers w.declared locals → List.Forall₂ BelongTo (namesAt (Script.stmtsSites w body))
      (stmtsUses locals (lowerStmts st (scopesAt w) body))
  | [], _, _, _ => .nil
  | s :: rest, w, locals, hw => by
    have hrest := names_lowerStmts st rest (w.past s) _ (hw.past st (scopesAt w) s)
    rw [Script.stmtsSites, Script.namesAt_append, lowerStmts_cons, Lua.stmtsUses_append,
      lowerStmt_snd]
    refine List.rel_append ?_ hrest
    have hs := names_lowerInner st s (w.toward s) locals (by cases s <;> exact hw)
    rw [lowerStmt_fst]
    cases isBlock s
    · exact hs
    · rw [← List.append_nil (stmtsUses _ _)] at hs
      exact hs

end

/-- **Names are lowered one by one**, each to its Lua name where everything that has been declared on
the way to it is a local. -/
theorem names_lower (st : Setting) (body : List Stmt) :
    List.Forall₂ BelongTo (Script.nameSites body) (stmtsUses [] (lower st body)) := by
  have hnone : Covers (Way.file body).declared [] := fun x hx => absurd hx List.not_mem_nil
  exact names_lowerStmts st body (.file body) [] hnone

end LuaSnippet.Lowering
