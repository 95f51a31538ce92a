import LuaSnippet.Proofs.Script.Site
import LuaSnippet.Script.File

/-!
# Unknown names

The inspection keeps a stack of scopes; the way to a site says which names are bound there. At the end
of a way the scopes bind the names of the way (`binds_scopesAt`), and the inspection goes through the
sites of a script one after the other (`filter_findings`). Main statement: `unknown_names_exact`.
-/

namespace LuaSnippet.Inspect

open Script (Expr Arg Field Stmt File Ident Param Way Site)
open Globals (Table)

/-! ### Scopes along a way -/

/-- The scopes at the end of a way. -/
def scopesAt : Way → Scopes
  | .file body => (openScope [] [] body).2
  | .arrow w params => Scope.ofParams params :: scopesAt w
  | .closure w params body => (openScope (scopesAt w) (Scope.ofParams params) body).2
  | .function w _ params body => (openScope (scopesAt w) (Scope.ofParams params) body).2
  | .loop w binding body =>
    (openBlock (Scopes.declareAll ([] :: scopesAt w) true binding.names).2 body).2
  | .branch w s => (openScope (scopesAt w) [] (branchBody s)).2
  | .otherwise w s => (openScope (scopesAt w) [] (branchBody s)).2
  | .block w body => (openScope (scopesAt w) [] body).2
  | .past w (.bind kind binding _ _) =>
    ((scopesAt w).declareAll (kind ≠ .varWord) binding.names).2
  | .past w _ => scopesAt w

theorem isSome_find?_iff {s : Scope} {x : String} :
    (s.find? x).isSome = true ↔ x ∈ s.map (·.name) := by
  simp [Scope.find?]

theorem binds_nil (x : String) : Scopes.binds [] x = false := rfl

theorem binds_cons (s : Scope) (ss : Scopes) (x : String) :
    Scopes.binds (s :: ss) x = true ↔ x ∈ s.map (·.name) ∨ ss.binds x = true := by
  rw [← isSome_find?_iff]
  simp [Scopes.binds]

/-- A declaration leaves all scopes but the innermost alone, and puts the name there. -/
theorem declare_cons (s : Scope) (ss : Scopes) (blockScoped : Bool) (id : Ident) :
    ∃ s', (Scopes.declare (s :: ss) blockScoped id).2 = s' :: ss ∧
      ∀ x, x ∈ s'.map (·.name) ↔ x = id.name ∨ x ∈ s.map (·.name) := by
  rcases hfind : s.find? id.name with _ | l
  · exact ⟨⟨id.name, blockScoped⟩ :: s, by simp [Scopes.declare, hfind], by simp⟩
  · have hmem : id.name ∈ s.map (·.name) := isSome_find?_iff.mp (by simp [hfind])
    refine ⟨s, ?_, fun x => ⟨.inr, ?_⟩⟩
    · simp only [Scopes.declare, hfind]
      split <;> rfl
    · rintro (rfl | hx)
      · exact hmem
      · exact hx

theorem declareAll_cons (ids : List Ident) (s : Scope) (ss : Scopes) (blockScoped : Bool) :
    ∃ s', (Scopes.declareAll (s :: ss) blockScoped ids).2 = s' :: ss ∧
      ∀ x, x ∈ s'.map (·.name) ↔ x ∈ ids.map (·.name) ∨ x ∈ s.map (·.name) := by
  induction ids generalizing s with
  | nil => exact ⟨s, rfl, by simp⟩
  | cons id ids ih =>
    obtain ⟨s₁, hfirst, hs₁⟩ := declare_cons s ss blockScoped id
    obtain ⟨s₂, hothers, hs₂⟩ := ih s₁
    refine ⟨s₂, ?_, fun x => ?_⟩
    · simp only [Scopes.declareAll, hfirst, hothers]
    · rw [hs₂, hs₁, List.map_cons, List.mem_cons, or_left_comm, or_assoc]

theorem binds_declareAll {ss : Scopes} (hss : ss ≠ []) (blockScoped : Bool) (ids : List Ident)
    (x : String) : (ss.declareAll blockScoped ids).2.binds x = true ↔
      x ∈ ids.map (·.name) ∨ ss.binds x = true := by
  obtain ⟨s, outer, rfl⟩ := List.exists_cons_of_ne_nil hss
  obtain ⟨s', hdeclared, hs'⟩ := declareAll_cons ids s outer blockScoped
  rw [hdeclared, binds_cons, binds_cons, hs', or_assoc]

theorem declareAll_ne_nil {ss : Scopes} (hss : ss ≠ []) (blockScoped : Bool) (ids : List Ident) :
    (ss.declareAll blockScoped ids).2 ≠ [] := by
  obtain ⟨s, outer, rfl⟩ := List.exists_cons_of_ne_nil hss
  obtain ⟨s', hdeclared, -⟩ := declareAll_cons ids s outer blockScoped
  simp [hdeclared]

theorem binds_openScope (ss : Scopes) (s : Scope) (body : List Stmt) (x : String) :
    (openScope ss s body).2.binds x = true ↔
      x ∈ s.map (·.name) ∨ x ∈ Script.functionNames body ∨ ss.binds x = true := by
  rw [openScope, binds_declareAll (List.cons_ne_nil _ _), binds_cons, or_left_comm]
  rfl

theorem openScope_ne_nil (ss : Scopes) (s : Scope) (body : List Stmt) :
    (openScope ss s body).2 ≠ [] :=
  declareAll_ne_nil (List.cons_ne_nil _ _) _ _

theorem map_name_ofParams (params : List Param) :
    (Scope.ofParams params).map (·.name) = params.map (·.name) := by
  simp [Scope.ofParams]

theorem binds_openBlock (ss : Scopes) (s : Stmt) (x : String) :
    (openBlock ss s).2.binds x = true ↔
      x ∈ Script.functionNames (Script.blockBody s) ∨ ss.binds x = true := by
  cases s with
  | block body _ =>
    rw [openBlock, binds_openScope, Script.blockBody]
    simp
  | _ => simp [openBlock, Script.blockBody, Script.functionNames]

theorem openBlock_ne_nil {ss : Scopes} (hss : ss ≠ []) (s : Stmt) : (openBlock ss s).2 ≠ [] := by
  cases s with
  | block body _ => exact openScope_ne_nil _ _ _
  | _ => exact hss

theorem scopesAt_ne_nil (w : Way) : scopesAt w ≠ [] := by
  induction w with
  | arrow w params ih => exact List.cons_ne_nil _ _
  | loop w binding body ih =>
    exact openBlock_ne_nil (declareAll_ne_nil (List.cons_ne_nil _ _) _ _) _
  | past w s ih =>
    cases s with
    | bind kind binding init span => exact declareAll_ne_nil ih _ _
    | _ => exact ih
  | _ => exact openScope_ne_nil _ _ _

/-- **The scopes at the end of a way bind the names of the way.** -/
theorem binds_scopesAt (w : Way) (x : String) : (scopesAt w).binds x = true ↔ x ∈ w.bound := by
  induction w with
  | file body => simp [scopesAt, binds_openScope, binds_nil, Way.bound]
  | arrow w params ih => simp only [scopesAt, binds_cons, map_name_ofParams, ih, Way.bound,
      List.mem_append]
  | closure w params body ih | function w name params body ih =>
    simp only [scopesAt, binds_openScope, map_name_ofParams, ih, Way.bound, List.mem_append,
      or_assoc]
  | loop w binding body ih =>
    rw [scopesAt, binds_openBlock, binds_declareAll (List.cons_ne_nil _ _), binds_cons, ih]
    simp only [Way.bound, List.mem_append, List.map_nil, List.not_mem_nil, false_or, or_left_comm,
      or_assoc]
  | branch w s ih | otherwise w s ih | block w body ih =>
    simp [scopesAt, binds_openScope, ih, Way.bound]
  | past w s ih =>
    cases s with
    | bind kind binding init span =>
      rw [scopesAt, binds_declareAll (scopesAt_ne_nil w), ih, Way.bound, List.mem_append]
      rfl
    | _ => simpa [scopesAt, Way.bound, Script.variableNames] using ih

/-! ### What is asked at a site -/

/-- What is wrong with a name, a member or a call, where it stands. -/
def siteFindings (t : Table) (p : Site) : List Finding :=
  match p.expr with
  | .ident id => nameFindings t (scopesAt p.way) id
  | .member owner property => memberFindings t (scopesAt p.way) owner property
  | .call callee args span => callFindings t (scopesAt p.way) callee args span.start
  | _ => []

/-- Whether a finding is about what is referred to, not about what is declared. -/
def Finding.isReference (f : Finding) : Bool :=
  match f.cause with
  | .redeclared _ => false
  | _ => true

theorem filter_declareAll (blockScoped : Bool) (ids : List Ident) (ss : Scopes) :
    (ss.declareAll blockScoped ids).1.filter Finding.isReference = [] := by
  induction ids generalizing ss with
  | nil => rfl
  | cons id ids ih =>
    have hfirst : (ss.declare blockScoped id).1.filter Finding.isReference = [] := by
      unfold Scopes.declare
      repeat' split
      all_goals rfl
    rw [Scopes.declareAll, List.filter_append, hfirst, ih, List.nil_append]

theorem filter_openScope (ss : Scopes) (s : Scope) (body : List Stmt) :
    (openScope ss s body).1.filter Finding.isReference = [] :=
  filter_declareAll _ _ _

theorem filter_openBlock (ss : Scopes) (s : Stmt) :
    (openBlock ss s).1.filter Finding.isReference = [] := by
  cases s with
  | block body _ => exact filter_openScope _ _ _
  | _ => rfl

theorem filter_siteFindings (t : Table) (p : Site) :
    (siteFindings t p).filter Finding.isReference = siteFindings t p := by
  unfold siteFindings nameFindings memberFindings callFindings
  repeat' split
  all_goals rfl

theorem openBlock_scopesAt (w : Way) (s : Stmt) :
    (openBlock (scopesAt w) s).2 = scopesAt (w.toward s) := by
  cases s <;> rfl

theorem closeBlock_scopesAt (t : Table) (w : Way) (s : Stmt) :
    closeBlock (scopesAt w) (innerWalk t (scopesAt (w.toward s)) s).2 s = scopesAt (w.past s) := by
  cases s <;> rfl

/-! ### The findings of a script -/

mutual

theorem filter_exprFindings (t : Table) (w : Way) : ∀ e : Expr,
    (exprFindings t (scopesAt w) e).filter Finding.isReference =
      (Script.exprSites w e).flatMap (siteFindings t)
  | .number _ _ | .string _ _ | .bool _ _ | .absent _ => rfl
  | .ident id => by
    rw [Script.exprSites, List.flatMap_singleton]
    exact filter_siteFindings t ⟨.ident id, w⟩
  | .array elements _ => filter_argsFindings t w elements
  | .object fields _ => filter_fieldsFindings t w fields
  | .call callee args span => by
    have hcall := filter_siteFindings t ⟨.call callee args span, w⟩
    simp only [exprFindings, Script.exprSites, List.filter_append, List.flatMap_append,
      filter_exprFindings t w callee, filter_argsFindings t w args, List.flatMap_singleton]
    exact congrArg _ hcall
  | .member owner property => by
    have hmember := filter_siteFindings t ⟨.member owner property, w⟩
    simp only [exprFindings, Script.exprSites, List.filter_append, List.flatMap_append,
      filter_exprFindings t w owner, List.flatMap_singleton]
    exact congrArg _ hmember
  | .nonNull inner | .paren inner _ => filter_exprFindings t w inner
  | .unary _ operand _ => filter_exprFindings t w operand
  | .binary _ lhs rhs => by
    simp only [exprFindings, Script.exprSites, List.filter_append, List.flatMap_append,
      filter_exprFindings t w lhs, filter_exprFindings t w rhs]
  | .arrow params value _ => filter_exprFindings t (w.arrow params) value
  | .closure params body _ => by
    simp only [exprFindings, Script.exprSites, List.filter_append, filter_openScope,
      List.nil_append]
    exact filter_stmtsWalk t (w.closure params body) body

theorem filter_argFindings (t : Table) (w : Way) : ∀ a : Arg,
    (argFindings t (scopesAt w) a).filter Finding.isReference =
      (Script.argSites w a).flatMap (siteFindings t)
  | .plain value | .spread value => filter_exprFindings t w value

theorem filter_argsFindings (t : Table) (w : Way) : ∀ args : List Arg,
    (argsFindings t (scopesAt w) args).filter Finding.isReference =
      (Script.argsSites w args).flatMap (siteFindings t)
  | [] => rfl
  | a :: rest => by
    simp only [argsFindings, Script.argsSites, List.filter_append, List.flatMap_append,
      filter_argFindings t w a, filter_argsFindings t w rest]

theorem filter_fieldFindings (t : Table) (w : Way) : ∀ f : Field,
    (fieldFindings t (scopesAt w) f).filter Finding.isReference =
      (Script.fieldSites w f).flatMap (siteFindings t)
  | .mk _ value => filter_exprFindings t w value

theorem filter_fieldsFindings (t : Table) (w : Way) : ∀ fields : List Field,
    (fieldsFindings t (scopesAt w) fields).filter Finding.isReference =
      (Script.fieldsSites w fields).flatMap (siteFindings t)
  | [] => rfl
  | f :: rest => by
    simp only [fieldsFindings, Script.fieldsSites, List.filter_append, List.flatMap_append,
      filter_fieldFindings t w f, filter_fieldsFindings t w rest]

theorem filter_optionFindings (t : Table) (w : Way) : ∀ e : Option Expr,
    (optionFindings t (scopesAt w) e).filter Finding.isReference =
      (Script.optionSites w e).flatMap (siteFindings t)
  | none => rfl
  | some e => filter_exprFindings t w e

theorem filter_innerWalk (t : Table) (w : Way) : ∀ s : Stmt,
    (innerWalk t (scopesAt w) s).1.filter Finding.isReference =
      (Script.innerSites w s).flatMap (siteFindings t)
  | .bind _ _ init _ => by
    simp only [innerWalk, Script.innerSites, List.filter_append, filter_declareAll,
      List.append_nil]
    exact filter_optionFindings t w init
  | .function name params body _ => by
    simp only [innerWalk, Script.innerSites, List.filter_append, filter_openScope,
      List.nil_append]
    exact filter_stmtsWalk t (w.function name params body) body
  | .assign target value _ => by
    simp only [innerWalk, Script.innerSites, List.filter_append, List.flatMap_append,
      filter_exprFindings t w target, filter_exprFindings t w value]
  | .forOf binding iterable body _ => by
    simp only [innerWalk, Script.innerSites, List.filter_append, List.flatMap_append,
      filter_exprFindings t w iterable, filter_declareAll, filter_openBlock, List.append_nil]
    exact congrArg _ (filter_innerWalk t (w.loop binding body) body)
  | .cond test whenTrue whenFalse _ => by
    simp only [innerWalk, Script.innerSites, List.filter_append, List.flatMap_append,
      filter_exprFindings t w test, filter_openScope, List.append_nil,
      filter_elseFindings t w whenFalse]
    exact congrArg (_ ++ · ++ _) (filter_innerWalk t (w.branch whenTrue) whenTrue)
  | .result value _ => filter_optionFindings t w value
  | .block body _ => filter_stmtsWalk t w body
  | .expr e => filter_exprFindings t w e
  | .declare _ _ | .typeOnly _ | .empty _ => rfl

theorem filter_elseFindings (t : Table) (w : Way) : ∀ rest : Option Stmt,
    (elseFindings t (scopesAt w) rest).filter Finding.isReference =
      (Script.elseSites w rest).flatMap (siteFindings t)
  | none => rfl
  | some s => by
    simp only [elseFindings, Script.elseSites, List.filter_append, filter_openScope,
      List.nil_append]
    exact filter_innerWalk t (w.otherwise s) s

theorem filter_stmtsWalk (t : Table) (w : Way) : ∀ body : List Stmt,
    (stmtsWalk t (scopesAt w) body).1.filter Finding.isReference =
      (Script.stmtsSites w body).flatMap (siteFindings t)
  | [] => rfl
  | s :: rest => by
    simp only [stmtsWalk, Script.stmtsSites, List.filter_append, List.flatMap_append,
      filter_openBlock, List.nil_append, closeBlock_scopesAt, openBlock_scopesAt,
      filter_innerWalk t (w.toward s) s, filter_stmtsWalk t (w.past s) rest]

end

/-- **What is found about references is what is wrong at the sites of the script**, one after the
other. -/
theorem filter_findings (f : File) (t : Table) :
    (findings f t).filter Finding.isReference =
      (Script.sites f.statements).flatMap (siteFindings t) := by
  rw [findings, List.filter_append, filter_openScope, List.nil_append]
  exact filter_stmtsWalk t (.file f.statements) f.statements

/-! ### Unknown names -/

/-- The names of a script that are neither global nor bound where they stand. -/
def unknownNames (t : Table) (body : List Stmt) : List Ident :=
  ((Script.nameSites body).filter fun n =>
    (t.find? n.1.name).isNone && !n.2.bound.contains n.1.name).map (·.1)

def Finding.isUnknownName (f : Finding) : Bool :=
  match f.cause with
  | .unknownName _ => true
  | _ => false

theorem isUnknownName_iff (f : Finding) : f.isUnknownName = true ↔ f.cause.code = 2304 := by
  obtain ⟨cause, offset⟩ := f
  cases cause with
  | argumentCount min max got => cases max <;> simp [Finding.isUnknownName, Cause.code]
  | _ => simp [Finding.isUnknownName, Cause.code]

theorem isReference_of_isUnknownName {f : Finding} (hf : f.isUnknownName = true) :
    f.isReference = true := by
  obtain ⟨cause, offset⟩ := f
  cases cause with
  | redeclared name => exact absurd hf Bool.false_ne_true
  | _ => rfl

def unknownFinding (id : Ident) : Finding :=
  ⟨.unknownName id.name, id.span.start⟩

theorem filter_siteFindings_unknown (t : Table) (p : Site) :
    (siteFindings t p).filter Finding.isUnknownName =
      match p.name? with
      | some id =>
        if (t.find? id.name).isNone && !p.way.bound.contains id.name then [unknownFinding id] else []
      | none => [] := by
  obtain ⟨e, w⟩ := p
  cases e with
  | ident id =>
    have hbinds : (scopesAt w).binds id.name = w.bound.contains id.name :=
      Bool.eq_iff_iff.mpr (by rw [binds_scopesAt, List.contains_iff_mem])
    simp only [siteFindings, nameFindings, hbinds, Site.name?]
    rcases t.find? id.name with _ | g <;> rcases w.bound.contains id.name with _ | _ <;> rfl
  | member owner property =>
    simp only [siteFindings, Site.name?, memberFindings]
    repeat' split
    all_goals rfl
  | call callee args span =>
    simp only [siteFindings, Site.name?, callFindings]
    repeat' split
    all_goals rfl
  | _ => rfl

theorem flatMap_siteFindings_unknown (t : Table) (ps : List Site) :
    (ps.flatMap fun p => (siteFindings t p).filter Finding.isUnknownName) =
      (((Script.namesAt ps).filter fun n =>
        (t.find? n.1.name).isNone && !n.2.bound.contains n.1.name).map (·.1)).map
          unknownFinding := by
  induction ps with
  | nil => rfl
  | cons p rest ih =>
    rw [List.flatMap_cons, ih, filter_siteFindings_unknown, Script.namesAt_cons]
    rcases p.name? with _ | id
    · rfl
    · simp only [Option.map_some, Option.toList_some, List.singleton_append, List.filter_cons]
      split <;> simp

theorem filter_findings_unknown (f : File) (t : Table) :
    (findings f t).filter Finding.isUnknownName =
      (unknownNames t f.statements).map unknownFinding := by
  have hfilter : (findings f t).filter Finding.isUnknownName =
      ((findings f t).filter Finding.isReference).filter Finding.isUnknownName := by
    rw [List.filter_filter]
    refine List.filter_congr fun a _ => ?_
    rcases hunknown : a.isUnknownName with _ | _
    · rfl
    · rw [isReference_of_isUnknownName hunknown]
      rfl
  rw [hfilter, filter_findings, List.filter_flatMap]
  exact flatMap_siteFindings_unknown t (Script.sites f.statements)

/-- **The inspection reports exactly the unbound names.** The diagnostics of a file about unknown
names are those of its names that are neither global nor bound where they stand, each once, in the
order in which they stand, and placed where the name starts. -/
theorem unknown_names_exact (f : File) (t : Table) :
    (diagnostics f t).filter (·.code = 2304) =
      (unknownNames t f.statements).map fun id =>
        (Diagnostic.error 2304 ("Cannot find name '" ++ id.name ++ "'.")).place f.name f.text
          id.span.start := by
  have hcode : ((fun d : Diagnostic => decide (d.code = 2304)) ∘
      fun a : Finding => a.diagnostic f.name f.text) = Finding.isUnknownName := by
    funext a
    exact Bool.eq_iff_iff.mpr (by rw [isUnknownName_iff]; exact decide_eq_true_iff)
  rw [diagnostics, List.filter_map, hcode, filter_findings_unknown, List.map_map]
  rfl

/-- A function is bound ahead of its declaration, a variable is not, nor in its own value. -/
example : (unknownNames [] (File.read "input.ts"
    "f(x); function f(y) { return y; } const x = x;" .es5).statements).map (·.span) =
      [⟨2, 3⟩, ⟨44, 45⟩] := by
  decide +kernel

end LuaSnippet.Inspect
