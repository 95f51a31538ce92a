import LuaSnippet.Inspect.Walk
import Mathlib.Data.List.Basic

/-!
# Redeclared names

The declarations of a script fall into scopes, each with an order of its own: parameters, then the
functions of the list, then the variables as they come (`scopes`). Which of them are illegal can be
said for every scope alone (`redeclared`). The inspection goes through a script once and remembers of
each open scope only what was declared first under a name. What it has reported when it comes to some
place accounts for the declarations of the open scope so far and for all scopes that it went through on
the way (`Reports`). Main statement: `redeclarations_exact`.
-/

namespace LuaSnippet.Inspect

open Script (Expr Arg Field Stmt File Ident Param)
open Globals (Table)
open scoped List

/-! ### Scopes of a script -/

/-- A declaration in a scope. A parameter has no place of its own, as nothing is ever wrong with it. -/
inductive Declared where
  | param (name : String)
  | named (id : Ident) (blockScoped : Bool)

namespace Declared

def name : Declared → String
  | param name => name
  | named id _ => id.name

/-- Whether the name is block scoped, as all are but those of parameters and `var`. -/
def blockScoped : Declared → Bool
  | param _ => false
  | named _ blockScoped => blockScoped

@[simp] theorem name_param (x : String) : (param x).name = x := rfl

@[simp] theorem name_named (id : Ident) (b : Bool) : (named id b).name = id.name := rfl

@[simp] theorem blockScoped_param (x : String) : (param x).blockScoped = false := rfl

@[simp] theorem blockScoped_named (id : Ident) (b : Bool) : (named id b).blockScoped = b := rfl

/-- The name that is declared again behind some declarations of the same scope although that one or the
first of its name is block scoped. -/
def redeclared? (before : List Declared) : Declared → Option Ident
  | param _ => none
  | named id blockScoped =>
    match before.find? fun d => d.name = id.name with
    | some first => if blockScoped || first.blockScoped then some id else none
    | none => none

def ofParams (params : List Param) : List Declared :=
  params.map fun p => param p.name

/-- The declarations of the functions among some statements. -/
def functions (body : List Stmt) : List Declared :=
  (body.filterMap functionName?).map (named · true)

def bindings : Stmt → List Declared
  | .bind kind binding _ _ => binding.names.map (named · (kind ≠ .varWord))
  | _ => []

/-- The declarations of a list of statements: functions come first, wherever they stand. -/
def ofBody (body : List Stmt) : List Declared :=
  functions body ++ body.flatMap bindings

/-- The scope of a statement in a list, if it is a block. -/
def ofBlock : Stmt → List (List Declared)
  | .block body _ => [ofBody body]
  | _ => []

end Declared

open Declared (ofParams functions bindings ofBody ofBlock)

/-- The illegal declarations of a scope: each is judged with those before it. -/
def redeclared (ds : List Declared) : List Ident :=
  ds.zipIdx.filterMap fun d => d.1.redeclared? (ds.take d.2)

mutual

def exprScopes : Expr → List (List Declared)
  | .number _ _ | .string _ _ | .bool _ _ | .absent _ | .ident _ => []
  | .array elements _ => argsScopes elements
  | .object fields _ => fieldsScopes fields
  | .call callee args _ => exprScopes callee ++ argsScopes args
  | .member owner _ => exprScopes owner
  | .nonNull inner => exprScopes inner
  | .paren inner _ => exprScopes inner
  | .unary _ operand _ => exprScopes operand
  | .binary _ lhs rhs => exprScopes lhs ++ exprScopes rhs
  | .arrow params value _ => ofParams params :: exprScopes value
  | .closure params body _ => (ofParams params ++ ofBody body) :: stmtsScopes body

def argScopes : Arg → List (List Declared)
  | .plain value => exprScopes value
  | .spread value => exprScopes value

def argsScopes : List Arg → List (List Declared)
  | [] => []
  | a :: rest => argScopes a ++ argsScopes rest

def fieldScopes : Field → List (List Declared)
  | .mk _ value => exprScopes value

def fieldsScopes : List Field → List (List Declared)
  | [] => []
  | f :: rest => fieldScopes f ++ fieldsScopes rest

def optionScopes : Option Expr → List (List Declared)
  | none => []
  | some e => exprScopes e

/-- The scopes in a statement, without the one that it has as a block. A loop has a scope for what it
binds, where its body declares too if it is no block; each branch of a conditional has one. -/
def innerScopes : Stmt → List (List Declared)
  | .bind _ _ init _ => optionScopes init
  | .function _ params body _ => (ofParams params ++ ofBody body) :: stmtsScopes body
  | .assign target value _ => exprScopes target ++ exprScopes value
  | .forOf binding iterable body _ =>
    exprScopes iterable ++
      (binding.names.map (.named · true) ++ bindings body) :: (ofBlock body ++ innerScopes body)
  | .cond test whenTrue whenFalse _ =>
    exprScopes test ++ ofBody (branchBody whenTrue) :: innerScopes whenTrue ++ elseScopes whenFalse
  | .result value _ => optionScopes value
  | .block body _ => stmtsScopes body
  | .expr e => exprScopes e
  | .declare _ _ | .typeOnly _ | .empty _ => []

def elseScopes : Option Stmt → List (List Declared)
  | none => []
  | some s => ofBody (branchBody s) :: innerScopes s

def stmtsScopes : List Stmt → List (List Declared)
  | [] => []
  | s :: rest => ofBlock s ++ innerScopes s ++ stmtsScopes rest

end

/-- The scopes of a script, each with its declarations in their order. -/
def scopes (body : List Stmt) : List (List Declared) :=
  ofBody body :: stmtsScopes body

/-! ### One scope -/

theorem redeclared_concat (ds : List Declared) (d : Declared) :
    redeclared (ds ++ [d]) = redeclared ds ++ (d.redeclared? ds).toList := by
  have htake : ∀ p ∈ ds.zipIdx, (ds ++ [d]).take p.2 = ds.take p.2 := by
    intro p hp
    have hlt := List.snd_lt_of_mem_zipIdx hp
    exact List.take_append_of_le_length (by omega)
  rw [redeclared, redeclared, List.zipIdx_append, List.filterMap_append]
  congr 1
  · refine List.filterMap_congr fun p hp => ?_
    rw [htake p hp]
  · simp only [List.zipIdx_singleton, Nat.zero_add, List.take_left, List.filterMap_cons,
      List.filterMap_nil]
    cases d.redeclared? ds <;> rfl

theorem redeclared_ofParams (params : List Param) : redeclared (ofParams params) = [] := by
  rw [redeclared, List.filterMap_eq_nil_iff]
  rintro ⟨d, i⟩ hd
  obtain ⟨p, -, rfl⟩ := List.mem_map.mp (List.fst_mem_of_mem_zipIdx hd)
  rfl

def redeclaredFinding (id : Ident) : Finding := ⟨.redeclared id.name, id.span.start⟩

def scopeFindings (ds : List Declared) : List Finding :=
  (redeclared ds).map redeclaredFinding

/-- A scope of the inspection keeps of some declarations what was declared first under each name. -/
def Scope.Keeps (s : Scope) (ds : List Declared) : Prop :=
  ∀ x, (s.find? x).map (·.blockScoped) = (ds.find? fun d => d.name = x).map (·.blockScoped)

theorem Scope.keeps_ofParams (params : List Param) :
    (Scope.ofParams params).Keeps (Declared.ofParams params) := by
  intro x
  rw [Scope.ofParams, Declared.ofParams, Scope.find?, List.find?_map, List.find?_map, Option.map_map,
    Option.map_map]
  rfl

/-- **One declaration**: what is found about it, and what the scope keeps then. -/
theorem declare_keeps {s : Scope} {ds : List Declared} (h : s.Keeps ds) (outer : Scopes)
    (blockScoped : Bool) (id : Ident) :
    ∃ s', Scopes.declare (s :: outer) blockScoped id =
        (((Declared.named id blockScoped).redeclared? ds).toList.map redeclaredFinding, s' :: outer) ∧
      s'.Keeps (ds ++ [.named id blockScoped]) := by
  have hx := h id.name
  rcases hfirst : ds.find? fun d => d.name = id.name with _ | first
  · rw [hfirst, Option.map_none, Option.map_eq_none_iff] at hx
    refine ⟨⟨id.name, blockScoped⟩ :: s, ?_, fun x => ?_⟩
    · simp [Scopes.declare, hx, Declared.redeclared?, hfirst]
    · rw [Scope.find?, List.find?_cons, List.find?_append]
      by_cases hname : id.name = x
      · subst hname
        simp [hfirst]
      · simpa [hname, Scope.find?] using h x
  · rw [hfirst, Option.map_some, Option.map_eq_some_iff] at hx
    obtain ⟨l, hl, hblock⟩ := hx
    refine ⟨s, ?_, fun x => ?_⟩
    · simp only [Scopes.declare, hl, Declared.redeclared?, hfirst, hblock,
        Bool.or_comm blockScoped]
      split <;> rfl
    · rw [List.find?_append, h x]
      by_cases hname : id.name = x
      · subst hname
        simp [hfirst]
      · simp [hname]

theorem declareAll_keeps (ids : List Ident) (blockScoped : Bool) (outer : Scopes) {s : Scope}
    {ds : List Declared} (h : s.Keeps ds) :
    ∃ s', (Scopes.declareAll (s :: outer) blockScoped ids).2 = s' :: outer ∧
      s'.Keeps (ds ++ ids.map (.named · blockScoped)) ∧
      scopeFindings ds ++ (Scopes.declareAll (s :: outer) blockScoped ids).1 =
        scopeFindings (ds ++ ids.map (.named · blockScoped)) := by
  induction ids generalizing s ds with
  | nil => exact ⟨s, rfl, by simpa using h, by simp [Scopes.declareAll]⟩
  | cons id ids ih =>
    obtain ⟨s₁, hfirst, hs₁⟩ := declare_keeps h outer blockScoped id
    obtain ⟨s₂, hothers, hs₂, hfound⟩ := ih hs₁
    rw [List.append_assoc, List.singleton_append] at hs₂ hfound
    refine ⟨s₂, ?_, hs₂, ?_⟩
    · rw [Scopes.declareAll, hfirst, hothers]
    · rw [List.map_cons, ← hfound, Scopes.declareAll, hfirst, scopeFindings, scopeFindings,
        redeclared_concat, List.map_append, List.append_assoc]

/-! ### What is reported on the way -/

/-- Whether a finding is about a redeclared name. -/
def Finding.isRedeclared (f : Finding) : Bool :=
  match f.cause with
  | .redeclared _ => true
  | _ => false

theorem filter_scopeFindings (ds : List Declared) :
    (scopeFindings ds).filter Finding.isRedeclared = scopeFindings ds := by
  rw [List.filter_eq_self, scopeFindings]
  rintro _ hf
  obtain ⟨id, -, rfl⟩ := List.mem_map.mp hf
  rfl

/-- What was found between two places of one scope, where `before` and `after` are its declarations up
to there, is what there is to be found about the declarations in between and about some scopes. -/
def Reports (before : List Declared) (found : List Finding) (after : List Declared)
    (inner : List (List Declared)) : Prop :=
  (scopeFindings before ++ found.filter Finding.isRedeclared).Perm
    (scopeFindings after ++ inner.flatMap scopeFindings)

namespace Reports

variable {before mid after ds : List Declared} {found others : List Finding}
  {inner rest : List (List Declared)}

theorem nil (ds : List Declared) : Reports ds [] ds [] := .refl _

theorem trans (h : Reports before found mid inner) (h' : Reports mid others after rest) :
    Reports before (found ++ others) after (inner ++ rest) := by
  unfold Reports at *
  rw [List.filter_append, List.flatMap_append, ← List.append_assoc]
  calc scopeFindings before ++ found.filter Finding.isRedeclared ++
          others.filter Finding.isRedeclared
    _ ~ scopeFindings mid ++ inner.flatMap scopeFindings ++ others.filter Finding.isRedeclared :=
        h.append_right _
    _ ~ inner.flatMap scopeFindings ++ (scopeFindings mid ++ others.filter Finding.isRedeclared) := by
        rw [← List.append_assoc]
        exact List.perm_append_comm.append_right _
    _ ~ inner.flatMap scopeFindings ++ (scopeFindings after ++ rest.flatMap scopeFindings) :=
        h'.append_left _
    _ ~ scopeFindings after ++ (inner.flatMap scopeFindings ++ rest.flatMap scopeFindings) :=
        List.perm_append_comm_assoc _ _ _

theorem of_filter (h : found.filter Finding.isRedeclared = []) (ds : List Declared) :
    Reports ds found ds [] := by
  rw [Reports, h]
  exact .refl _

/-- A scope within another: it starts with declarations that nothing is wrong with. -/
theorem enclosed (h : Reports before found after inner) (hbefore : redeclared before = [])
    (ds : List Declared) : Reports ds found ds (after :: inner) := by
  unfold Reports at *
  rw [scopeFindings, hbefore, List.map_nil, List.nil_append] at h
  exact h.append_left _

theorem of_eq (h : scopeFindings before ++ found = scopeFindings after) :
    Reports before found after [] := by
  have hfilter := congrArg (List.filter Finding.isRedeclared) h
  rw [List.filter_append, filter_scopeFindings, filter_scopeFindings] at hfilter
  rw [Reports, hfilter, List.flatMap_nil, List.append_nil]

end Reports

/-! ### The inspection -/

variable {s : Scope} {ds : List Declared}

theorem openScope_keeps (ss : Scopes) (body : List Stmt) (h : s.Keeps ds) :
    ∃ s', (openScope ss s body).2 = s' :: ss ∧ s'.Keeps (ds ++ functions body) ∧
      Reports ds (openScope ss s body).1 (ds ++ functions body) [] := by
  obtain ⟨s', hopened, hs', hfound⟩ := declareAll_keeps (body.filterMap functionName?) true ss h
  exact ⟨s', hopened, hs', .of_eq hfound⟩

theorem Scope.keeps_nil : Scope.Keeps [] [] := fun _ => rfl

theorem reports_nameFindings (t : Table) (ss : Scopes) (id : Ident) (ds : List Declared) :
    Reports ds (nameFindings t ss id) ds [] := by
  refine .of_filter ?_ ds
  unfold nameFindings
  split <;> rfl

theorem reports_memberFindings (t : Table) (ss : Scopes) (owner : Expr) (property : Ident)
    (ds : List Declared) : Reports ds (memberFindings t ss owner property) ds [] := by
  refine .of_filter ?_ ds
  unfold memberFindings
  repeat' split
  all_goals rfl

theorem reports_callFindings (t : Table) (ss : Scopes) (callee : Expr) (args : List Arg)
    (offset : Nat) (ds : List Declared) :
    Reports ds (callFindings t ss callee args offset) ds [] := by
  refine .of_filter ?_ ds
  unfold callFindings
  repeat' split
  all_goals rfl

theorem reports_openScope {t : Table} {body : List Stmt} {start : List Declared} (hs : s.Keeps start)
    (hstart : redeclared start = [])
    (hbody : ∀ {s : Scope} {ds : List Declared} (outer : Scopes), s.Keeps ds →
      Reports ds (stmtsWalk t (s :: outer) body).1 (ds ++ body.flatMap bindings) (stmtsScopes body))
    (ss : Scopes) (ds : List Declared) :
    Reports ds ((openScope ss s body).1 ++ (stmtsWalk t (openScope ss s body).2 body).1) ds
      ((start ++ ofBody body) :: stmtsScopes body) := by
  obtain ⟨s', hopened, hs', hfunctions⟩ := openScope_keeps ss body hs
  have hwalk := hfunctions.trans (hbody ss hs')
  rw [hopened, ofBody, ← List.append_assoc]
  exact hwalk.enclosed hstart ds

theorem reports_branch {t : Table} {s : Stmt}
    (hinner : ∀ {l : Scope} {ds : List Declared} (outer : Scopes), l.Keeps ds →
      Reports ds (innerWalk t (l :: outer) s).1 (ds ++ (branchBody s).flatMap bindings)
        (innerScopes s))
    (ss : Scopes) (ds : List Declared) :
    Reports ds ((openScope ss [] (branchBody s)).1 ++
      (innerWalk t (openScope ss [] (branchBody s)).2 s).1) ds
      (ofBody (branchBody s) :: innerScopes s) := by
  obtain ⟨s', hopened, hs', hfunctions⟩ := openScope_keeps ss (branchBody s) Scope.keeps_nil
  have hwalk := hfunctions.trans (hinner ss hs')
  rw [hopened]
  exact hwalk.enclosed rfl ds

theorem reports_stmt {t : Table} {s : Stmt}
    (hinner : ∀ {l : Scope} {ds : List Declared} (outer : Scopes), l.Keeps ds →
      Reports ds (innerWalk t (l :: outer) s).1 (ds ++ (branchBody s).flatMap bindings)
        (innerScopes s))
    {l : Scope} (h : l.Keeps ds) (outer : Scopes) :
    Reports ds ((openBlock (l :: outer) s).1 ++ (innerWalk t (openBlock (l :: outer) s).2 s).1)
      (ds ++ bindings s) (ofBlock s ++ innerScopes s) := by
  cases s with
  | block body span =>
    have hblock := reports_branch hinner (l :: outer) ds
    have hnone : bindings (.block body span) = [] := rfl
    rw [hnone, List.append_nil]
    exact hblock
  | _ =>
    have hplain := hinner outer h
    rw [branchBody, List.flatMap_singleton] at hplain
    · exact hplain
    · simp

/-- The scope behind a statement of a list keeps the declarations of the statement too. -/
theorem closeBlock_keeps (t : Table) (st : Stmt) (h : s.Keeps ds) (outer : Scopes) :
    ∃ s', closeBlock (s :: outer) (innerWalk t (openBlock (s :: outer) st).2 st).2 st = s' :: outer ∧
      s'.Keeps (ds ++ bindings st) := by
  cases st with
  | bind kind binding init span =>
    obtain ⟨s', hdeclared, hs', -⟩ := declareAll_keeps binding.names (kind ≠ .varWord) outer h
    exact ⟨s', hdeclared, hs'⟩
  | _ => exact ⟨s, rfl, by simpa [bindings] using h⟩

theorem Reports.of_plain {found : List Finding} {inner : List (List Declared)} {st : Stmt}
    (hbody : branchBody st = [st]) (hnone : bindings st = []) (h : Reports ds found ds inner) :
    Reports ds found (ds ++ (branchBody st).flatMap bindings) inner := by
  rwa [hbody, List.flatMap_singleton, hnone, List.append_nil]

mutual

theorem reports_expr (t : Table) (ss : Scopes) (ds : List Declared) : ∀ e : Expr,
    Reports ds (exprFindings t ss e) ds (exprScopes e)
  | .number _ _ | .string _ _ | .bool _ _ | .absent _ => .nil ds
  | .ident id => reports_nameFindings t ss id ds
  | .array elements _ => reports_args t ss ds elements
  | .object fields _ => reports_fields t ss ds fields
  | .call callee args span => by
    have hparts := (reports_expr t ss ds callee).trans (reports_args t ss ds args)
    have hcall := hparts.trans (reports_callFindings t ss callee args span.start ds)
    rwa [List.append_nil] at hcall
  | .member owner property => by
    have hmember := (reports_expr t ss ds owner).trans
      (reports_memberFindings t ss owner property ds)
    rwa [List.append_nil] at hmember
  | .nonNull inner | .paren inner _ => reports_expr t ss ds inner
  | .unary _ operand _ => reports_expr t ss ds operand
  | .binary _ lhs rhs => (reports_expr t ss ds lhs).trans (reports_expr t ss ds rhs)
  | .arrow params value _ =>
    (reports_expr t (Scope.ofParams params :: ss) (ofParams params) value).enclosed
      (redeclared_ofParams params) ds
  | .closure params body _ =>
    reports_openScope (Scope.keeps_ofParams params) (redeclared_ofParams params)
      (reports_stmts t body) ss ds

theorem reports_arg (t : Table) (ss : Scopes) (ds : List Declared) : ∀ a : Arg,
    Reports ds (argFindings t ss a) ds (argScopes a)
  | .plain value | .spread value => reports_expr t ss ds value

theorem reports_args (t : Table) (ss : Scopes) (ds : List Declared) : ∀ args : List Arg,
    Reports ds (argsFindings t ss args) ds (argsScopes args)
  | [] => .nil ds
  | a :: rest => (reports_arg t ss ds a).trans (reports_args t ss ds rest)

theorem reports_field (t : Table) (ss : Scopes) (ds : List Declared) : ∀ f : Field,
    Reports ds (fieldFindings t ss f) ds (fieldScopes f)
  | .mk _ value => reports_expr t ss ds value

theorem reports_fields (t : Table) (ss : Scopes) (ds : List Declared) : ∀ fields : List Field,
    Reports ds (fieldsFindings t ss fields) ds (fieldsScopes fields)
  | [] => .nil ds
  | f :: rest => (reports_field t ss ds f).trans (reports_fields t ss ds rest)

theorem reports_option (t : Table) (ss : Scopes) (ds : List Declared) : ∀ e : Option Expr,
    Reports ds (optionFindings t ss e) ds (optionScopes e)
  | none => .nil ds
  | some e => reports_expr t ss ds e

theorem reports_inner (t : Table) : ∀ (st : Stmt) {s : Scope} {ds : List Declared} (outer : Scopes),
    s.Keeps ds → Reports ds (innerWalk t (s :: outer) st).1 (ds ++ (branchBody st).flatMap bindings)
      (innerScopes st)
  | .bind kind binding init span, s, ds, outer, h => by
    obtain ⟨-, -, -, hfound⟩ := declareAll_keeps binding.names (kind ≠ .varWord) outer h
    have hbind := (reports_option t (s :: outer) ds init).trans (.of_eq hfound)
    have hbody : branchBody (.bind kind binding init span) = [.bind kind binding init span] := rfl
    rw [hbody, List.flatMap_singleton]
    rwa [List.append_nil] at hbind
  | .function _ params body _, s, ds, outer, _ =>
    .of_plain rfl rfl (reports_openScope (Scope.keeps_ofParams params) (redeclared_ofParams params)
      (reports_stmts t body) (s :: outer) ds)
  | .assign target value _, s, ds, outer, _ =>
    .of_plain rfl rfl ((reports_expr t _ ds target).trans (reports_expr t _ ds value))
  | .forOf binding iterable body _, s, ds, outer, _ => by
    obtain ⟨s', hhead, hs', hfound⟩ :=
      declareAll_keeps binding.names true (s :: outer) Scope.keeps_nil
    have hloop : Reports [] _ _ _ :=
      (Reports.of_eq hfound).trans (reports_stmt (reports_inner t body) hs' (s :: outer))
    have hwhole := (reports_expr t (s :: outer) ds iterable).trans (hloop.enclosed rfl ds)
    refine .of_plain rfl rfl ?_
    simp only [innerWalk, hhead, List.append_assoc]
    exact hwhole
  | .cond test whenTrue whenFalse _, s, ds, outer, _ => by
    have hfirst := (reports_expr t (s :: outer) ds test).trans
      (reports_branch (reports_inner t whenTrue) (s :: outer) ds)
    have hwhole := hfirst.trans (reports_else t (s :: outer) ds whenFalse)
    refine .of_plain rfl rfl ?_
    rw [← List.append_assoc] at hwhole
    exact hwhole
  | .result value _, s, ds, outer, _ =>
    .of_plain rfl rfl (reports_option t (s :: outer) ds value)
  | .block body _, _, _, outer, h => reports_stmts t body outer h
  | .expr e, s, ds, outer, _ => .of_plain rfl rfl (reports_expr t (s :: outer) ds e)
  | .declare _ _, _, ds, _, _ | .typeOnly _, _, ds, _, _ | .empty _, _, ds, _, _ =>
    .of_plain rfl rfl (.nil ds)

theorem reports_else (t : Table) (ss : Scopes) (ds : List Declared) : ∀ rest : Option Stmt,
    Reports ds (elseFindings t ss rest) ds (elseScopes rest)
  | none => .nil ds
  | some s => reports_branch (reports_inner t s) ss ds

theorem reports_stmts (t : Table) : ∀ (body : List Stmt) {s : Scope} {ds : List Declared}
    (outer : Scopes), s.Keeps ds →
      Reports ds (stmtsWalk t (s :: outer) body).1 (ds ++ body.flatMap bindings) (stmtsScopes body)
  | [], s, ds, outer, _ => by
    rw [List.flatMap_nil, List.append_nil]
    exact .nil ds
  | st :: rest, s, ds, outer, h => by
    obtain ⟨s', hclosed, hs'⟩ := closeBlock_keeps t st h outer
    have hwhole := (reports_stmt (reports_inner t st) h outer).trans
      (reports_stmts t rest outer hs')
    rw [List.append_assoc ds, ← List.flatMap_cons] at hwhole
    simp only [stmtsWalk, hclosed]
    exact hwhole

end

/-! ### Redeclared names -/

theorem isRedeclared_iff (f : Finding) : f.isRedeclared = true ↔ f.cause.code = 2451 := by
  obtain ⟨cause, offset⟩ := f
  cases cause with
  | argumentCount min max got => cases max <;> simp [Finding.isRedeclared, Cause.code]
  | _ => simp [Finding.isRedeclared, Cause.code]

theorem filter_findings_redeclared (f : File) (t : Table) :
    ((findings f t).filter Finding.isRedeclared) ~ (scopes f.statements).flatMap scopeFindings := by
  obtain ⟨s, hopened, hs, hfunctions⟩ := openScope_keeps [] f.statements Scope.keeps_nil
  have hwhole := hfunctions.trans (reports_stmts t f.statements [] hs)
  rw [← hopened] at hwhole
  exact hwhole

/-- **The inspection reports exactly the illegal redeclarations.** Take the declarations of each scope of
a file in their order. The diagnostics about redeclared names are, each once, those of the declarations
that come behind one of the same name in the same scope, other than parameters, where the declaration
itself or the first one of its name is block scoped; they are placed where the name starts. -/
theorem redeclarations_exact (f : File) (t : Table) :
    ((diagnostics f t).filter (·.code = 2451)) ~
      ((scopes f.statements).flatMap redeclared).map fun id =>
        (Diagnostic.error 2451 ("Cannot redeclare block-scoped variable '" ++ id.name ++ "'.")).place
          f.name f.text id.span.start := by
  have hcode : ((fun d : Diagnostic => decide (d.code = 2451)) ∘
      fun a : Finding => a.diagnostic f.name f.text) = Finding.isRedeclared := by
    funext a
    exact Bool.eq_iff_iff.mpr (by rw [isRedeclared_iff]; exact decide_eq_true_iff)
  have hfound := (filter_findings_redeclared f t).map (·.diagnostic f.name f.text)
  simp only [scopeFindings, List.map_flatMap, List.map_map] at hfound
  rw [diagnostics, List.filter_map, hcode, List.map_flatMap]
  exact hfound

/-- A variable may repeat a parameter; a block scoped one may not, nor may any repeat a function. -/
example : ((scopes (File.read "input.ts"
    "function f(a) { var a; let a; { let a; } } var f;" .es5).statements).flatMap
      redeclared).map (·.span) = [⟨47, 48⟩, ⟨27, 28⟩] := by
  decide +kernel

end LuaSnippet.Inspect
