import LuaSnippet.Proofs.Globals.Overload
import LuaSnippet.Proofs.Inspect.Names
import LuaSnippet.Proofs.Lowering.Names
import LuaSnippet.Lua.Print
import LuaSnippet.Script.File

/-!
# Resolving names alike

The inspection and the lowering of a script keep scopes of their own. For the inspection a function is
local in the whole list that it stands in; for the lowering it is local from its declaration on, as it
is in Lua. Where every bound name is declared on the way to its use (`DeclaredFirst`), both give the same
answers, calls take the overloads that were accepted, and what was taken for a local is one in Lua
(`resolved_alike`). A call ahead of the declaration of its function is resolved differently
(`early_call_resolved_apart`).
-/

namespace LuaSnippet.Script

/-- The names of the functions around that are the body of a loop without braces. They are in no list
of statements. -/
def Way.strays : Way → List String
  | file _ => []
  | arrow w _ => w.strays
  | closure w _ _ => w.strays
  | function w _ _ _ => w.strays
  | loop w _ (.function name _ _ _) => name.name :: w.strays
  | loop w _ _ => w.strays
  | branch w _ => w.strays
  | otherwise w _ => w.strays
  | block w _ => w.strays
  | past w _ => w.strays

/-- The names that have to be resolved at a site. -/
def Site.asks (p : Site) : List String :=
  match p.expr with
  | .ident id => [id.name]
  | .member owner _ => Globals.spaceNames owner
  | .call callee _ _ => Globals.calleeNames callee
  | _ => []

/-- Every bound name of a script is declared on the way to each of its uses, and no function is used
that is the body of a loop without braces. -/
def DeclaredFirst (body : List Stmt) : Prop :=
  ∀ p ∈ sites body, ∀ x ∈ p.asks, (x ∈ p.way.bound → x ∈ p.way.declared) ∧ x ∉ p.way.strays

instance (body : List Stmt) : Decidable (DeclaredFirst body) :=
  inferInstanceAs (Decidable (∀ p ∈ sites body, ∀ x ∈ p.asks,
    (x ∈ p.way.bound → x ∈ p.way.declared) ∧ x ∉ p.way.strays))

end LuaSnippet.Script

namespace LuaSnippet.Lowering

open Script (Expr Arg Field Stmt Param Binding Signature File Way Site functionNames)
open Inspect (branchBody)

/-! ### What the lowering takes for local -/

theorem binds_cons (s : List String) (ss : Scopes) (x : String) :
    Scopes.binds (s :: ss) x = true ↔ x ∈ s ∨ ss.binds x = true := by
  simp [Scopes.binds]

theorem declareAll_cons (names s : List String) (ss : Scopes) :
    ∃ s', Scopes.declareAll (s :: ss) names = s' :: ss ∧ ∀ x, x ∈ s' ↔ x ∈ names ∨ x ∈ s := by
  induction names generalizing s with
  | nil => exact ⟨s, rfl, by simp⟩
  | cons name names ih =>
    obtain ⟨s', hdeclared, hs'⟩ := ih (name :: s)
    refine ⟨s', hdeclared, fun x => ?_⟩
    rw [hs', List.mem_cons, List.mem_cons, or_left_comm, or_assoc]

theorem binds_declareAll {ss : Scopes} (hss : ss ≠ []) (names : List String) (x : String) :
    (ss.declareAll names).binds x = true ↔ x ∈ names ∨ ss.binds x = true := by
  obtain ⟨s, outer, rfl⟩ := List.exists_cons_of_ne_nil hss
  obtain ⟨s', hdeclared, hs'⟩ := declareAll_cons names s outer
  rw [hdeclared, binds_cons, binds_cons, hs', or_assoc]

theorem binds_declare {ss : Scopes} (hss : ss ≠ []) (name x : String) :
    (ss.declare name).binds x = true ↔ x = name ∨ ss.binds x = true := by
  have hone := binds_declareAll hss [name] x
  rwa [List.mem_singleton] at hone

theorem declareAll_ne_nil {ss : Scopes} (hss : ss ≠ []) (names : List String) :
    ss.declareAll names ≠ [] := by
  obtain ⟨s, outer, rfl⟩ := List.exists_cons_of_ne_nil hss
  obtain ⟨s', hdeclared, -⟩ := declareAll_cons names s outer
  simp [hdeclared]

theorem scopesAt_ne_nil (w : Way) : scopesAt w ≠ [] := by
  induction w with
  | otherwise w s ih =>
    cases s with
    | cond => exact ih
    | _ => exact List.cons_ne_nil _ _
  | past w s ih =>
    cases s with
    | bind kind binding init span => exact declareAll_ne_nil ih _
    | function name params body span => exact declareAll_ne_nil ih [name.name]
    | _ => exact ih
  | _ => exact List.cons_ne_nil _ _

theorem binds_otherwise (w : Way) (s : Stmt) (x : String) :
    (scopesAt (w.otherwise s)).binds x = (scopesAt w).binds x := by
  cases s <;> rfl

theorem binds_past (w : Way) (s : Stmt) (x : String) :
    (scopesAt (w.past s)).binds x = true ↔
      x ∈ Script.declaredNames s ∨ (scopesAt w).binds x = true := by
  cases s with
  | bind kind binding init span => exact binds_declareAll (scopesAt_ne_nil w) _ x
  | function name params body span => exact binds_declareAll (scopesAt_ne_nil w) [name.name] x
  | _ => simp [scopesAt, Script.declaredNames]

theorem mem_paramNames_of_given {params : List Param} {x : String}
    (hx : x ∈ Script.givenNames params) : x ∈ paramNames params := by
  obtain ⟨p, hp, rfl⟩ := List.mem_map.mp hx
  refine List.mem_map_of_mem ?_
  rcases List.mem_append.mp hp with hp | hp
  · exact List.mem_of_find?_eq_some (Option.mem_toList.mp hp)
  · exact List.mem_of_mem_filter hp

/-- What has been declared on a way is local for the lowering. -/
theorem binds_of_declared {w : Way} {x : String} (hx : x ∈ w.declared) :
    (scopesAt w).binds x = true := by
  induction w with
  | file body => exact absurd hx List.not_mem_nil
  | arrow w params ih | closure w params body ih =>
    rw [scopesAt, binds_cons]
    rcases List.mem_append.mp hx with hx | hx
    · exact .inl (mem_paramNames_of_given hx)
    · exact .inr (ih hx)
  | function w name params body ih =>
    rw [scopesAt, binds_cons, binds_declare (scopesAt_ne_nil w)]
    rcases List.mem_append.mp hx with hx | hx
    · exact .inl (mem_paramNames_of_given hx)
    · exact .inr ((List.mem_cons.mp hx).imp_right ih)
  | loop w binding body ih =>
    rw [scopesAt, binds_cons, binds_declareAll (List.cons_ne_nil _ _), binds_cons]
    rcases List.mem_append.mp hx with hx | hx
    · exact .inr (.inl hx)
    · exact .inr (.inr (.inr (ih hx)))
  | branch w s ih | block w body ih => exact ih hx
  | otherwise w s ih => rw [binds_otherwise]; exact ih hx
  | past w s ih =>
    rw [binds_past]
    exact (List.mem_append.mp hx).imp_right ih

/-- Everything that is local for the lowering at the end of a way is bound there, or the name of a
stray function. -/
def Known (w : Way) : Prop :=
  ∀ x, (scopesAt w).binds x = true → x ∈ w.bound ∨ x ∈ w.strays

/-- The functions among some statements are bound at the end of a way, or stray. -/
def Lists (w : Way) (body : List Stmt) : Prop :=
  ∀ x ∈ functionNames body, x ∈ w.bound ∨ x ∈ w.strays

variable {w : Way}

theorem Known.onward {w' : Way} (hw : Known w)
    (hscopes : ∀ x, (scopesAt w').binds x = true →
      (x ∈ w'.bound ∨ x ∈ w'.strays) ∨ (scopesAt w).binds x = true)
    (hbound : ∀ x ∈ w.bound, x ∈ w'.bound) (hstrays : ∀ x ∈ w.strays, x ∈ w'.strays) :
    Known w' := by
  intro x hx
  rcases hscopes x hx with hx | hx
  · exact hx
  · exact (hw x hx).imp (hbound x) (hstrays x)

theorem Known.arrow (hw : Known w) (params : List Param) : Known (w.arrow params) :=
  hw.onward (fun x hx => ((binds_cons _ _ x).mp hx).imp_left fun hx =>
    .inl (List.mem_append_left _ hx)) (fun _ => List.mem_append_right _) fun _ hx => hx

theorem Known.closure (hw : Known w) (params : List Param) (body : List Stmt) :
    Known (w.closure params body) :=
  hw.onward (fun x hx => ((binds_cons _ _ x).mp hx).imp_left fun hx =>
    .inl (List.mem_append_left _ (List.mem_append_left _ hx)))
    (fun _ => List.mem_append_right _) fun _ hx => hx

theorem Known.function (hw : Known w) {name : Script.Ident}
    (hname : name.name ∈ w.bound ∨ name.name ∈ w.strays) (params : List Param) (body : List Stmt) :
    Known (w.function name params body) := by
  refine hw.onward (fun x hx => ?_) (fun _ => List.mem_append_right _) fun _ hx => hx
  rw [scopesAt, binds_cons, binds_declare (scopesAt_ne_nil w)] at hx
  rcases hx with hx | rfl | hx
  · exact .inl (.inl (List.mem_append_left _ (List.mem_append_left _ hx)))
  · exact .inl (hname.imp_left (List.mem_append_right _))
  · exact .inr hx

theorem Known.loop (hw : Known w) (binding : Binding) (body : Stmt) :
    Known (w.loop binding body) := by
  refine hw.onward (fun x hx => ?_) (fun _ => List.mem_append_right _) fun x hx => ?_
  · rw [scopesAt, binds_cons, binds_declareAll (List.cons_ne_nil _ _), binds_cons] at hx
    rcases hx with hx | hx | hx | hx
    · exact absurd hx List.not_mem_nil
    · exact .inl (.inl (List.mem_append_left _ (List.mem_append_left _ hx)))
    · exact absurd hx List.not_mem_nil
    · exact .inr hx
  · cases body with
    | function => exact List.mem_cons_of_mem _ hx
    | _ => exact hx

theorem Known.branch (hw : Known w) (s : Stmt) : Known (w.branch s) :=
  hw.onward (fun _ hx => .inr hx) (fun _ => List.mem_append_right _) fun _ hx => hx

theorem Known.otherwise (hw : Known w) (s : Stmt) : Known (w.otherwise s) :=
  hw.onward (fun x hx => .inr (binds_otherwise w s x ▸ hx)) (fun _ => List.mem_append_right _)
    fun _ hx => hx

theorem Known.block (hw : Known w) (body : List Stmt) : Known (w.block body) :=
  hw.onward (fun _ hx => .inr hx) (fun _ => List.mem_append_right _) fun _ hx => hx

theorem Known.past (hw : Known w) {s : Stmt} {rest : List Stmt} (hlists : Lists w (s :: rest)) :
    Known (w.past s) := by
  refine hw.onward (fun x hx => ((binds_past w s x).mp hx).imp_left fun hx => ?_)
    (fun _ => List.mem_append_right _) fun _ hx => hx
  cases s with
  | bind kind binding init span => exact .inl (List.mem_append_left _ hx)
  | function name params body span =>
    rw [List.mem_singleton.mp hx]
    exact hlists _ List.mem_cons_self
  | _ => exact absurd hx List.not_mem_nil

theorem Lists.past {s : Stmt} {rest : List Stmt} (hlists : Lists w (s :: rest)) :
    Lists (w.past s) rest := by
  intro x hx
  obtain ⟨id, hid, rfl⟩ := List.mem_map.mp hx
  obtain ⟨s', hs', hid⟩ := List.mem_filterMap.mp hid
  have hmem : id.name ∈ functionNames (s :: rest) :=
    List.mem_map_of_mem (List.mem_filterMap.mpr ⟨s', List.mem_cons_of_mem _ hs', hid⟩)
  exact (hlists _ hmem).imp_left (List.mem_append_right _)

theorem Lists.toward {s : Stmt} {rest : List Stmt} (hlists : Lists w (s :: rest)) :
    Lists (w.toward s) (branchBody s) := by
  cases s with
  | block body span => exact fun x hx => .inl (List.mem_append_left _ hx)
  | function name params body span =>
    intro x hx
    rw [List.mem_singleton.mp hx]
    exact hlists _ List.mem_cons_self
  | _ => exact fun x hx => absurd hx List.not_mem_nil

theorem lists_loop (w : Way) (binding : Binding) (body : Stmt) :
    Lists (w.loop binding body) (branchBody body) := by
  cases body with
  | block body span =>
    exact fun x hx => .inl (List.mem_append_left _ (List.mem_append_right _ hx))
  | function name params body span =>
    intro x hx
    rw [List.mem_singleton.mp hx]
    exact .inr List.mem_cons_self
  | _ => exact fun x hx => absurd hx List.not_mem_nil

mutual

theorem known_exprSites : ∀ (e : Expr) (w : Way), Known w →
    ∀ p ∈ Script.exprSites w e, Known p.way
  | .number _ _, _, _ | .string _ _, _, _ | .bool _ _, _, _ | .absent _, _, _ => nofun
  | .ident _, _, hw => List.forall_mem_singleton.mpr hw
  | .array elements _, w, hw => known_argsSites elements w hw
  | .object fields _, w, hw => known_fieldsSites fields w hw
  | .call callee args _, w, hw =>
    List.forall_mem_append.mpr ⟨List.forall_mem_append.mpr
      ⟨known_exprSites callee w hw, known_argsSites args w hw⟩, List.forall_mem_singleton.mpr hw⟩
  | .member owner _, w, hw =>
    List.forall_mem_append.mpr ⟨known_exprSites owner w hw, List.forall_mem_singleton.mpr hw⟩
  | .nonNull inner, w, hw | .paren inner _, w, hw => known_exprSites inner w hw
  | .unary _ operand _, w, hw => known_exprSites operand w hw
  | .binary _ lhs rhs, w, hw =>
    List.forall_mem_append.mpr ⟨known_exprSites lhs w hw, known_exprSites rhs w hw⟩
  | .arrow params value _, w, hw => known_exprSites value (w.arrow params) (hw.arrow params)
  | .closure params body _, w, hw =>
    known_stmtsSites body (w.closure params body) (hw.closure params body) fun _ hx =>
      .inl (List.mem_append_left _ (List.mem_append_right _ hx))

theorem known_argsSites : ∀ (args : List Arg) (w : Way), Known w →
    ∀ p ∈ Script.argsSites w args, Known p.way
  | [], _, _ => nofun
  | .plain value :: rest, w, hw | .spread value :: rest, w, hw =>
    List.forall_mem_append.mpr ⟨known_exprSites value w hw, known_argsSites rest w hw⟩

theorem known_fieldsSites : ∀ (fields : List Field) (w : Way), Known w →
    ∀ p ∈ Script.fieldsSites w fields, Known p.way
  | [], _, _ => nofun
  | .mk _ value :: rest, w, hw =>
    List.forall_mem_append.mpr ⟨known_exprSites value w hw, known_fieldsSites rest w hw⟩

theorem known_optionSites : ∀ (e : Option Expr) (w : Way), Known w →
    ∀ p ∈ Script.optionSites w e, Known p.way
  | none, _, _ => nofun
  | some e, w, hw => known_exprSites e w hw

theorem known_innerSites : ∀ (s : Stmt) (w : Way), Known w → Lists w (branchBody s) →
    ∀ p ∈ Script.innerSites w s, Known p.way
  | .bind _ _ init _, w, hw, _ => known_optionSites init w hw
  | .function name params body _, w, hw, hlists =>
    known_stmtsSites body (w.function name params body)
      (hw.function (hlists _ List.mem_cons_self) params body) fun _ hx =>
        .inl (List.mem_append_left _ (List.mem_append_right _ hx))
  | .assign target value _, w, hw, _ =>
    List.forall_mem_append.mpr ⟨known_exprSites target w hw, known_exprSites value w hw⟩
  | .forOf binding iterable body _, w, hw, _ =>
    List.forall_mem_append.mpr ⟨known_exprSites iterable w hw,
      known_innerSites body (w.loop binding body) (hw.loop binding body)
        (lists_loop w binding body)⟩
  | .cond test whenTrue whenFalse _, w, hw, _ =>
    List.forall_mem_append.mpr ⟨List.forall_mem_append.mpr ⟨known_exprSites test w hw,
      known_innerSites whenTrue (w.branch whenTrue) (hw.branch whenTrue) fun _ hx =>
        .inl (List.mem_append_left _ hx)⟩, known_elseSites whenFalse w hw⟩
  | .result value _, w, hw, _ => known_optionSites value w hw
  | .block body _, w, hw, hlists => known_stmtsSites body w hw hlists
  | .expr e, w, hw, _ => known_exprSites e w hw
  | .declare _ _, _, _, _ | .typeOnly _, _, _, _ | .empty _, _, _, _ => nofun

theorem known_elseSites : ∀ (rest : Option Stmt) (w : Way), Known w →
    ∀ p ∈ Script.elseSites w rest, Known p.way
  | none, _, _ => nofun
  | some s, w, hw => known_innerSites s (w.otherwise s) (hw.otherwise s) fun _ hx =>
      .inl (List.mem_append_left _ hx)

theorem known_stmtsSites : ∀ (body : List Stmt) (w : Way), Known w → Lists w body →
    ∀ p ∈ Script.stmtsSites w body, Known p.way
  | [], _, _, _ => nofun
  | s :: rest, w, hw, hlists => by
    have htoward : Known (w.toward s) := by
      cases s with
      | block body span => exact hw.block body
      | _ => exact hw
    exact List.forall_mem_append.mpr ⟨known_innerSites s (w.toward s) htoward hlists.toward,
      known_stmtsSites rest (w.past s) (hw.past hlists) hlists.past⟩

end

/-- What is local for the lowering at a site is bound there, or the name of a stray function. -/
theorem known_sites {body : List Stmt} : ∀ p ∈ Script.sites body, Known p.way := by
  refine known_stmtsSites body (.file body) (fun x hx => ?_) fun x hx => .inl hx
  simp [scopesAt, Scopes.binds] at hx

/-! ### Accepted calls -/

/-- What the inspection makes of a call: no call of a declared function, or one that is accepted by an
overload. -/
inductive Accepts (t : Globals.Table) (ss : Inspect.Scopes) (callee : Expr) (args : List Arg) :
    Option Signature → Prop
  | other (hother : Globals.overloads? t ss.binds callee = none) : Accepts t ss callee args none
  | overload {overloads : List Signature} {i : Nat} {s : Signature}
      (hoverloads : Globals.overloads? t ss.binds callee = some overloads)
      (hselect : Globals.select overloads args = .ok (i, s)) : Accepts t ss callee args (some s)

theorem accepts_of_callFindings {t : Globals.Table} {ss : Inspect.Scopes} {callee : Expr}
    {args : List Arg} {offset : Nat} (hcall : Inspect.callFindings t ss callee args offset = []) :
    Accepts t ss callee args ((Globals.overloads? t ss.binds callee).bind fun overloads =>
      match Globals.select overloads args with
      | .ok found => some found.2
      | .error _ => none) := by
  unfold Inspect.callFindings at hcall
  rcases hoverloads : Globals.overloads? t ss.binds callee with _ | overloads
  · exact .other hoverloads
  · simp only [hoverloads] at hcall
    rcases hselect : Globals.select overloads args with m | ⟨i, s⟩
    · simp only [hselect] at hcall
      cases m with
      | argument index got want =>
        have hindex := List.getElem?_eq_getElem (Globals.index_lt_of_select hselect)
        simp [hindex] at hcall
      | _ => simp at hcall
    · simp only [Option.bind_some, hselect]
      exact .overload hoverloads hselect

/-! ### Resolving alike -/

/-- At a site, a name is local for the lowering if it is for the inspection, and a call takes the
overload that the inspection accepts. -/
structure Alike (st : Setting) (p : Site) : Prop where
  binds : ∀ x ∈ p.asks, (scopesAt p.way).binds x = (Inspect.scopesAt p.way).binds x
  call : ∀ callee args span, p.expr = .call callee args span →
    Accepts st.globals (Inspect.scopesAt p.way) callee args (signature? st (scopesAt p.way) p.expr)

variable {st : Setting} {f : File}

theorem binds_alike (hfirst : Script.DeclaredFirst f.statements) {p : Site}
    (hp : p ∈ Script.sites f.statements) {x : String} (hx : x ∈ p.asks) :
    (scopesAt p.way).binds x = (Inspect.scopesAt p.way).binds x := by
  obtain ⟨hdeclared, hstray⟩ := hfirst p hp x hx
  refine Bool.eq_iff_iff.mpr ⟨fun hlocal => ?_, fun hlocal => ?_⟩
  · have hbound := (known_sites p hp x hlocal).resolve_right hstray
    exact (Inspect.binds_scopesAt p.way x).mpr hbound
  · have hbound := (Inspect.binds_scopesAt p.way x).mp hlocal
    exact binds_of_declared (hdeclared hbound)

theorem siteFindings_eq_nil {t : Globals.Table} (hfindings : Inspect.findings f t = [])
    {p : Site} (hp : p ∈ Script.sites f.statements) : Inspect.siteFindings t p = [] := by
  have hnone := Inspect.filter_findings f t
  rw [hfindings, List.filter_nil] at hnone
  exact List.flatMap_eq_nil_iff.mp hnone.symm p hp

theorem alike_of_declaredFirst (hfindings : Inspect.findings f st.globals = [])
    (hfirst : Script.DeclaredFirst f.statements) {p : Site}
    (hp : p ∈ Script.sites f.statements) : Alike st p where
  binds x hx := binds_alike hfirst hp hx
  call callee args span hcall := by
    obtain ⟨e, w⟩ := p
    obtain rfl : e = .call callee args span := hcall
    have hnone : Inspect.callFindings st.globals (Inspect.scopesAt w) callee args span.start = [] :=
      siteFindings_eq_nil hfindings hp
    have hoverloads := Globals.overloads?_congr st.globals callee fun x hx =>
      binds_alike hfirst hp hx
    have hsignature : signature? st (scopesAt w) (.call callee args span) =
        (Globals.overloads? st.globals (scopesAt w).binds callee).bind fun overloads =>
          match Globals.select overloads args with
          | .ok found => some found.2
          | .error _ => none := rfl
    rw [hsignature, hoverloads]
    exact accepts_of_callFindings hnone

theorem declared_of_mem_nameSites (hfirst : Script.DeclaredFirst f.statements) :
    ∀ n ∈ Script.nameSites f.statements,
      (Inspect.scopesAt n.2).binds n.1.name = true → n.1.name ∈ n.2.declared := by
  intro n hn hlocal
  obtain ⟨⟨e, w⟩, hp, hname⟩ := List.mem_filterMap.mp hn
  cases e with
  | ident id =>
    obtain rfl : (id, w) = n := Option.some.inj hname
    exact (hfirst _ hp id.name List.mem_cons_self).1 ((Inspect.binds_scopesAt w id.name).mp hlocal)
  | _ => simp [Site.name?] at hname

/-- **The inspection and the lowering resolve names alike**, where every bound name is declared on the
way to its use. In a file without findings every name is local for both or for none, and every call
takes the overload that was accepted. The names of the Lua tree are those of the file, one by one, and
where a name was taken for a local, its Lua name is a local in force. -/
theorem resolved_alike (hfindings : Inspect.findings f st.globals = [])
    (hfirst : Script.DeclaredFirst f.statements) :
    (∀ p ∈ Script.sites f.statements, Alike st p) ∧
      List.Forall₂ (fun n u => u.name = Lua.nameOf n.1.name ∧
          ((Inspect.scopesAt n.2).binds n.1.name = true → u.name ∈ u.locals))
        (Script.nameSites f.statements) (Lua.stmtsUses [] (lower st f.statements)) := by
  refine ⟨fun p hp => alike_of_declaredFirst hfindings hfirst hp, ?_⟩
  have hnames := (List.forall₂_and_left _ _).mpr
    ⟨declared_of_mem_nameSites hfirst, names_lower st f.statements⟩
  refine hnames.imp fun n u hn => ?_
  obtain ⟨hdeclared, hname, hcovers⟩ := hn
  exact ⟨hname, fun hlocal => hname ▸ hcovers _ (hdeclared hlocal)⟩

/-- A setting in which `pair` is a global function that gives several values. -/
def pairSetting : Setting :=
  ⟨.lua53, Globals.declareAll
    [.function ⟨"pair", [], some "LuaMultiReturn<[number, number]>"⟩] []⟩

/-- A script that declares a function of its own in place of a global one, and calls both. -/
def pairFile : File :=
  File.read "input.ts"
    "const [a, b] = pair();\nif (a) { function pair() { return [b, a]; } const [c] = pair(); }" .es5

theorem pairFile_resolved_alike :
    (Inspect.findings pairFile pairSetting.globals = [] ∧
      Script.DeclaredFirst pairFile.statements) ∧
    (Script.sites pairFile.statements).length = 7 ∧
    (∀ p ∈ Script.sites pairFile.statements, Alike pairSetting p) ∧
      List.Forall₂ (fun n u => u.name = Lua.nameOf n.1.name ∧
          ((Inspect.scopesAt n.2).binds n.1.name = true → u.name ∈ u.locals))
        (Script.nameSites pairFile.statements)
        (Lua.stmtsUses [] (lower pairSetting pairFile.statements)) := by
  have hfile : Inspect.findings pairFile pairSetting.globals = [] ∧
      Script.DeclaredFirst pairFile.statements := by decide +kernel
  exact ⟨hfile, by decide +kernel, resolved_alike hfile.1 hfile.2⟩

/-- A script that calls a function ahead of its declaration. -/
def earlyFile : File :=
  File.read "input.ts" "const [a, b] = pair();\nfunction pair() { return [1, 2]; }" .es5

/-- A call ahead of the declaration of its function is resolved apart: the inspection, which finds
nothing wrong, takes it for a call of that function, and the lowering for one of the global function.
In Lua the function is declared behind the call. -/
theorem early_call_resolved_apart :
    Inspect.findings earlyFile pairSetting.globals = [] ∧
      (∃ p ∈ Script.sites earlyFile.statements, "pair" ∈ p.asks ∧
        (Inspect.scopesAt p.way).binds "pair" = true ∧
        (scopesAt p.way).binds "pair" = false ∧ isMulti pairSetting (scopesAt p.way) p.expr = true) ∧
      Lua.stmtsText "\n" 0 (lower pairSetting earlyFile.statements) =
        "local a, b = pair()\nlocal function pair()\n    return \x7b1, 2\x7d\nend\n" := by
  decide +kernel

end LuaSnippet.Lowering
