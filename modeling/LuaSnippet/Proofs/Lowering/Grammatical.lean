import LuaSnippet.Proofs.Lua.Grammatical
import LuaSnippet.Proofs.Lowering.Delivery
import LuaSnippet.Proofs.Lowering.Lacking
import LuaSnippet.Proofs.Lowering.Printable

/-!
# Lowered scripts are Lua

Scripts may have what Lua has no form for: patterns without names, statements behind a return, rest
parameters anywhere, calls in groups as statements, and calls and members of numbers, truth values and
the absent value. A script without any of these, and without operators that the dialect lacks, is
lowered to a tree that is printed as Lua (`grammatical_lower`).
-/

namespace LuaSnippet.Script

/-! ### Scripts that Lua has a form for -/

/-- Whether an expression is a number, a truth value or absent, under its non-null marks. -/
def Expr.isPlainLiteral : Expr → Bool
  | .number _ _ | .bool _ _ | .absent _ => true
  | .nonNull inner => inner.isPlainLiteral
  | _ => false

/-- Whether no parameter but the last takes all further arguments. -/
def restIsLast (params : List Param) : Bool :=
  params.dropLast.all fun p => !p.isRest

def Stmt.isResult : Stmt → Bool
  | .result _ _ => true
  | _ => false

/-- Whether a statement has no lowered form of its own. -/
def Stmt.isSilent : Stmt → Bool
  | .declare _ _ | .typeOnly _ | .empty _ => true
  | _ => false

mutual

/-- Whether Lua has a form for an expression. -/
def Expr.isRegular : Expr → Bool
  | .number _ _ | .string _ _ | .bool _ _ | .absent _ | .ident _ => true
  | .array elements _ => argsRegular elements
  | .object fields _ => fieldsRegular fields
  | .call callee args _ => !callee.isPlainLiteral && callee.isRegular && argsRegular args
  | .member owner _ => !owner.isPlainLiteral && owner.isRegular
  | .nonNull inner => inner.isRegular
  | .paren inner _ => inner.isRegular
  | .unary _ operand _ => operand.isRegular
  | .binary _ lhs rhs => lhs.isRegular && rhs.isRegular
  | .arrow params value _ => restIsLast params && value.isRegular
  | .closure params body _ => restIsLast params && stmtsRegular body

def Arg.isRegular : Arg → Bool
  | .plain value => value.isRegular
  | .spread value => value.isRegular

def argsRegular : List Arg → Bool
  | [] => true
  | a :: rest => a.isRegular && argsRegular rest

def Field.isRegular : Field → Bool
  | .mk _ value => value.isRegular

def fieldsRegular : List Field → Bool
  | [] => true
  | f :: rest => f.isRegular && fieldsRegular rest

/-- Whether Lua has a form for a statement. -/
def Stmt.isRegular : Stmt → Bool
  | .bind _ binding none _ => !binding.names.isEmpty
  | .bind _ binding (some init) _ => !binding.names.isEmpty && init.isRegular
  | .function _ params body _ => restIsLast params && stmtsRegular body
  | .assign target value _ => target.isRegular && value.isRegular
  | .forOf binding iterable body _ =>
    !binding.names.isEmpty && iterable.isRegular && body.isRegular
  | .cond test whenTrue whenFalse _ =>
    test.isRegular && whenTrue.isRegular && elseRegular whenFalse
  | .result none _ => true
  | .result (some value) _ => value.isRegular
  | .block body _ => stmtsRegular body
  | .expr e => !(Lowering.isCall e && e.isGrouped) && e.isRegular
  | .declare _ _ | .typeOnly _ | .empty _ => true

def elseRegular : Option Stmt → Bool
  | none => true
  | some s => s.isRegular

/-- Whether Lua has a form for some statements: behind one that returns nothing is lowered. -/
def stmtsRegular : List Stmt → Bool
  | [] => true
  | s :: rest => s.isRegular && (!s.isResult || rest.all (·.isSilent)) && stmtsRegular rest

end

end LuaSnippet.Script

namespace LuaSnippet.Lowering

open Script (Expr Arg Field Stmt Param Binding Phrase IsName IsNumber)
open Lua (StmtsGrammatical ExprsGrammatical FieldsGrammatical AreNames AreParams IsNumberIn nameOf)

/-! ### Sound phrases -/

/-- Whether everything within a phrase is sound, and no operator within it lacks in a dialect. -/
def Fits (d : Dialect) (x : Phrase) : Prop :=
  ∀ y : Phrase, y.Within x → y.IsSound ∧ ownReports d y = []

namespace Fits

variable {d : Dialect} {x : Phrase}

theorem isSound (h : Fits d x) : x.IsSound := (h x .refl).1

theorem ownReports_eq (h : Fits d x) : ownReports d x = [] := (h x .refl).2

theorem part (h : Fits d x) {y : Phrase} (hy : y ∈ x.parts) : Fits d y :=
  fun z hz => h z (.part hy hz)

theorem of_forall {α : Type} {f : α → Phrase} {as : List α} (h : ∀ y ∈ as.map f, Fits d y) :
    ∀ a ∈ as, Fits d (f a) :=
  fun a ha => h (f a) (List.mem_map_of_mem ha)

end Fits

/-! ### Numbers, names and parameters -/

theorem isNumberIn_of_isNumber (d : Dialect) {text : String} (h : IsNumber text) :
    IsNumberIn d text.toList := by
  rcases h with ⟨mark, digits, hchars, hmark, hne, hdigits⟩ |
    ⟨whole, fraction, exponent, hchars, hwhole, hfraction, hexponent⟩
  · have hpoint : '.' ∉ digits := fun hmem => absurd (hdigits _ hmem) (by decide)
    rw [hchars, ← List.append_nil digits]
    exact .hex (by simpa using hmark) (.whole hne hdigits) .none fun _ => ⟨hpoint, rfl⟩
  · have hmantissa : Lua.IsMantissa Char.isDigit (whole ++ fraction) := by
      rcases hfraction with rfl | ⟨digits, rfl, hdigits⟩
      · rw [List.append_nil]
        exact .whole hwhole.1 hwhole.2
      · exact .pointed (List.append_ne_nil_of_left_ne_nil hwhole.1 _) hwhole.2 hdigits.2
    rw [hchars, ← List.append_assoc]
    refine .decimal hmantissa ?_
    rcases hexponent with rfl | ⟨mark, sign, digits, rfl, hmark, hsign, hdigits⟩
    · exact .none
    · exact .some (by simpa using hmark) (by simpa using hsign) hdigits.1 hdigits.2

theorem areNames_bindingNames {b : Binding} (hb : ∀ id ∈ b.names, IsName id.name)
    (hne : b.names.isEmpty = false) : AreNames ((bindingNames b).map nameOf) := by
  refine ⟨?_, isName_bindingNames hb⟩
  rw [bindingNames, List.map_map]
  simpa using hne

theorem areParams_lowerParam {params : List Param} (hparams : ∀ p ∈ params, IsName p.name)
    (hrest : Script.restIsLast params = true) : AreParams (params.map lowerParam) := by
  induction params with
  | nil => trivial
  | cons p rest ih =>
    obtain ⟨hp, hnames⟩ := List.forall_mem_cons.mp hparams
    rw [List.map_cons, lowerParam]
    cases rest with
    | nil =>
      split
      · rfl
      · exact ⟨isName_nameOf hp, trivial⟩
    | cons q rest =>
      rw [Script.restIsLast, List.dropLast_cons_cons, List.all_cons, Bool.and_eq_true] at hrest
      rw [if_neg (by simpa using hrest.1)]
      exact ⟨isName_nameOf hp, ih hnames hrest.2⟩

/-! ### Lists of statements -/

theorem stmtsGrammatical_append {d : Dialect} {xs ys : List Lua.Stmt}
    (hxs : StmtsGrammatical d xs) (hys : StmtsGrammatical d ys)
    (hresult : ∀ x ∈ xs, x.isResult = true → ys = []) : StmtsGrammatical d (xs ++ ys) := by
  induction xs with
  | nil => exact hys
  | cons x xs ih =>
    obtain ⟨hx, hlast, hrest⟩ := hxs
    obtain ⟨hfirst, hmore⟩ := List.forall_mem_cons.mp hresult
    refine ⟨hx, fun h => ?_, ih hrest hmore⟩
    rw [hlast h, hfirst h]
    rfl

theorem isResult_lowerStmt (st : Setting) (ss : Scopes) {s : Stmt} (hs : s.isResult = false) :
    ∀ x ∈ (lowerStmt st ss s).1, x.isResult = false := by
  cases s with
  | result => cases hs
  | bind kind binding init span => cases init <;> exact List.forall_mem_singleton.mpr rfl
  | forOf binding iterable body span =>
    have hloop : ∀ (iterable : Bool) e body, (loop st binding iterable e body).isResult = false := by
      intro iterable e body
      rw [loop]
      split <;> rfl
    exact List.forall_mem_singleton.mpr (hloop _ _ _)
  | expr e =>
    have hlowered : (lowerStmt st ss (.expr e)).1 =
        [if isCall e then .call (lowerExpr st ss e) else .discard (lowerExpr st ss e)] := rfl
    rw [hlowered]
    cases isCall e <;> exact List.forall_mem_singleton.mpr rfl
  | declare | typeOnly | empty =>
    intro x hx
    cases hx
  | _ => exact List.forall_mem_singleton.mpr rfl

theorem lowerStmts_eq_nil (st : Setting) (ss : Scopes) {body : List Stmt}
    (hbody : body.all (·.isSilent) = true) : lowerStmts st ss body = [] := by
  induction body with
  | nil => rfl
  | cons s rest ih =>
    rw [List.all_cons, Bool.and_eq_true] at hbody
    cases s with
    | declare | typeOnly | empty => exact ih hbody.2
    | _ => cases hbody.1

theorem stmtsGrammatical_packRest {d : Dialect} {params : List Param}
    (hparams : ∀ p ∈ params, IsName p.name) {body : List Lua.Stmt}
    (hbody : StmtsGrammatical d body) : StmtsGrammatical d (packRest params ++ body) := by
  rw [packRest]
  split
  · rename_i name hname
    have hnames : AreNames [name] := by
      refine ⟨List.cons_ne_nil _ _, List.forall_mem_singleton.mpr ?_⟩
      exact isName_restName? hparams name hname
    exact ⟨⟨hnames, trivial, trivial⟩, nofun, hbody⟩
  · exact hbody

/-! ### Parts of lowered trees -/

section

variable {st : Setting} {ss : Scopes} {d : Dialect} {e : Lua.Expr}

theorem grammatical_groupIf {group : Bool} (he : e.Grammatical d) :
    (groupIf group e).Grammatical d := by
  cases group <;> exact he

theorem grammatical_unpack (he : e.Grammatical d) : (unpack d e).Grammatical d :=
  ⟨rfl, trivial, he, trivial⟩

theorem grammatical_collectIf {multi : Bool} (he : e.Grammatical d) :
    (collectIf multi e).Grammatical d := by
  cases multi
  · exact he
  · exact ⟨he, trivial⟩

theorem grammatical_spreadUnless {multi : Bool} (he : e.Grammatical d) :
    (spreadUnless d multi e).Grammatical d := by
  cases multi
  · exact grammatical_unpack he
  · exact he

theorem grammatical_lowerUnary {op : Script.UnaryOp} (hop : unaryLack d op = none) (group : Bool)
    (he : e.Grammatical d) : (lowerUnary d op group e).Grammatical d := by
  cases op with
  | not => exact ⟨rfl, grammatical_groupIf he⟩
  | neg => exact ⟨rfl, grammatical_groupIf (grammatical_groupIf he)⟩
  | bitNot =>
    cases d with
    | lua51 => cases hop
    | lua53 => exact ⟨rfl, grammatical_groupIf he⟩
    | lua52 | luaJit => exact ⟨rfl, trivial, he, trivial⟩

theorem isIn_binOp {op : Script.BinaryOp} (hop : binaryLack d op = none)
    (hcall : bitCall? d op = none) (lhs rhs : Expr) : (binOp op lhs rhs).isIn d = true := by
  rw [binOp]
  split
  · rfl
  · cases d with
    | lua53 => cases op <;> rfl
    | lua51 => cases op <;> first | rfl | cases hop
    | lua52 | luaJit => cases op <;> first | rfl | cases hcall

theorem grammatical_lowerBinary {op : Script.BinaryOp} (hop : binaryLack d op = none)
    (lhs rhs : Expr) {l r : Lua.Expr} (hl : l.Grammatical d) (hr : r.Grammatical d) :
    (lowerBinary d op lhs rhs l r).Grammatical d := by
  rw [lowerBinary]
  split
  · exact ⟨rfl, trivial, hl, hr, trivial⟩
  · rename_i hcall
    exact ⟨isIn_binOp hop hcall lhs rhs, grammatical_groupIf hl, grammatical_groupIf hr⟩

theorem grammatical_declareWith {b : Binding} (hb : AreNames ((bindingNames b).map nameOf))
    (init : Expr) (he : e.Grammatical st.dialect) :
    (declareWith st ss b init e).Grammatical st.dialect := by
  refine ⟨hb, ?_⟩
  split
  · exact grammatical_spreadUnless he
  · exact grammatical_collectIf he

theorem grammatical_loop {b : Binding} (hb : AreNames ((bindingNames b).map nameOf))
    (iterable : Bool) (he : e.Grammatical st.dialect) {body : List Lua.Stmt}
    (hbody : StmtsGrammatical st.dialect body) :
    (loop st b iterable e body).Grammatical st.dialect := by
  rw [loop]
  split
  · exact ⟨hb, he, hbody⟩
  · simp only [loopHead]
    split
    · have hloop : AreNames ["____", Lua.Builtin.loopValue.text] := ⟨by decide, by decide⟩
      exact ⟨hloop, ⟨rfl, trivial, he, trivial⟩, ⟨hb, grammatical_unpack trivial⟩,
        fun hresult => absurd hresult Bool.false_ne_true, hbody⟩
    · refine ⟨⟨List.cons_ne_nil _ _, ?_⟩, ⟨rfl, trivial, he, trivial⟩, hbody⟩
      exact List.forall_mem_cons.mpr ⟨by decide, hb.2⟩

/-- What is called or has members is lowered to what can be, unless it is a plain literal. -/
theorem isPrefix_lowerExpr (st : Setting) (ss : Scopes) : ∀ e : Expr, Fits d (.expr e) →
    e.isOperand = true → e.isPlainLiteral = false →
      (groupIf (groupsAsCallee e) (lowerExpr st ss e)).isPrefix = true
  | .nonNull inner, he, _, hplain =>
    isPrefix_lowerExpr st ss inner (he.part (.head _)) he.isSound hplain
  | .paren inner _, _, _, _ => by
    cases groupsAsCallee (.paren inner _) <;> rfl
  | .string _ _, _, _, _ | .ident _, _, _, _ | .array _ _, _, _, _ | .object _ _, _, _, _
  | .call _ _ _, _, _, _ | .member _ _, _, _, _ | .arrow _ _ _, _, _, _
  | .closure _ _ _, _, _, _ => rfl

theorem isVariable_lowerExpr (st : Setting) (ss : Scopes) {e : Expr} (he : e.isPlace = true) :
    (lowerExpr st ss e).isVariable = true := by
  cases e with
  | ident | member => rfl
  | _ => cases he

theorem isCall_lowerExpr (st : Setting) (ss : Scopes) : ∀ e : Expr, isCall e = true →
    e.isGrouped = false → (lowerExpr st ss e).isCall = true
  | .nonNull inner, hcall, hgrouped => isCall_lowerExpr st ss inner hcall hgrouped
  | .call _ _ _, _, _ => rfl

end

/-! ### Lowered trees -/

mutual

/-- **A sound and regular expression is lowered to one that is printed as Lua.** -/
theorem grammatical_lowerExpr (st : Setting) (ss : Scopes) : ∀ e : Expr,
    Fits st.dialect (.expr e) → e.isRegular = true → (lowerExpr st ss e).Grammatical st.dialect
  | .number _ _, he, _ => isNumberIn_of_isNumber _ he.isSound
  | .ident _, he, _ => isName_nameOf he.isSound
  | .string _ _, _, _ | .bool _ _, _, _ | .absent _, _, _ => trivial
  | .array elements _, he, hr =>
    grammatical_lowerItems st ss elements (Fits.of_forall fun _ => he.part) hr
  | .object fields _, he, hr =>
    grammatical_lowerFields st ss fields (Fits.of_forall fun _ => he.part) hr
  | .call callee args _, he, hr => by
    simp only [Expr.isRegular, Bool.and_eq_true, Bool.not_eq_true'] at hr
    have hcallee : Fits st.dialect (.expr callee) := he.part (.head _)
    exact ⟨isPrefix_lowerExpr st ss callee hcallee he.isSound hr.1.1,
      grammatical_groupIf (grammatical_lowerExpr st ss callee hcallee hr.1.2),
      grammatical_lowerArgs st ss args
        (Fits.of_forall fun _ hy => he.part (List.mem_cons_of_mem _ hy)) hr.2⟩
  | .member owner _, he, hr => by
    simp only [Expr.isRegular, Bool.and_eq_true, Bool.not_eq_true'] at hr
    have howner : Fits st.dialect (.expr owner) := he.part (.head _)
    exact ⟨isPrefix_lowerExpr st ss owner howner he.isSound hr.1,
      grammatical_groupIf (grammatical_lowerExpr st ss owner howner hr.2)⟩
  | .nonNull inner, he, hr => grammatical_lowerExpr st ss inner (he.part (.head _)) hr
  | .paren inner _, he, hr => grammatical_lowerExpr st ss inner (he.part (.head _)) hr
  | .unary _ operand _, he, hr =>
    grammatical_lowerUnary (reportOf_eq_nil he.ownReports_eq) _
      (grammatical_lowerExpr st ss operand (he.part (.head _)) hr)
  | .binary _ lhs rhs, he, hr => by
    rw [Expr.isRegular, Bool.and_eq_true] at hr
    exact grammatical_lowerBinary (reportOf_eq_nil he.ownReports_eq) lhs rhs
      (grammatical_lowerExpr st ss lhs (he.part (.head _)) hr.1)
      (grammatical_lowerExpr st ss rhs (he.part (.tail _ (.head _))) hr.2)
  | .arrow params value _, he, hr => by
    rw [Expr.isRegular, Bool.and_eq_true] at hr
    exact ⟨areParams_lowerParam he.isSound hr.1, isName_restName? he.isSound,
      grammatical_lowerExpr st _ value (he.part (.head _)) hr.2⟩
  | .closure params body _, he, hr => by
    rw [Expr.isRegular, Bool.and_eq_true] at hr
    exact ⟨areParams_lowerParam he.isSound hr.1, stmtsGrammatical_packRest he.isSound
      (grammatical_lowerStmts st _ body (Fits.of_forall fun _ => he.part) hr.2)⟩

theorem grammatical_lowerArg (st : Setting) (ss : Scopes) : ∀ a : Arg,
    Fits st.dialect (.expr a.value) → a.isRegular = true →
      (lowerArg st ss a).Grammatical st.dialect
  | .plain value, ha, hr => grammatical_collectIf (grammatical_lowerExpr st ss value ha hr)
  | .spread value, ha, hr => grammatical_spreadUnless (grammatical_lowerExpr st ss value ha hr)

theorem grammatical_lowerArgs (st : Setting) (ss : Scopes) : ∀ args : List Arg,
    (∀ a ∈ args, Fits st.dialect (.expr a.value)) → Script.argsRegular args = true →
      ExprsGrammatical st.dialect (lowerArgs st ss args)
  | [], _, _ => trivial
  | a :: rest, hargs, hr => by
    obtain ⟨ha, hrest⟩ := List.forall_mem_cons.mp hargs
    rw [Script.argsRegular, Bool.and_eq_true] at hr
    exact ⟨grammatical_lowerArg st ss a ha hr.1, grammatical_lowerArgs st ss rest hrest hr.2⟩

theorem grammatical_lowerItems (st : Setting) (ss : Scopes) : ∀ args : List Arg,
    (∀ a ∈ args, Fits st.dialect (.expr a.value)) → Script.argsRegular args = true →
      FieldsGrammatical st.dialect (lowerItems st ss args)
  | [], _, _ => trivial
  | a :: rest, hargs, hr => by
    obtain ⟨ha, hrest⟩ := List.forall_mem_cons.mp hargs
    rw [Script.argsRegular, Bool.and_eq_true] at hr
    exact ⟨grammatical_lowerArg st ss a ha hr.1, grammatical_lowerItems st ss rest hrest hr.2⟩

theorem grammatical_lowerFields (st : Setting) (ss : Scopes) : ∀ fields : List Field,
    (∀ f ∈ fields, Fits st.dialect (.expr f.value)) → Script.fieldsRegular fields = true →
      FieldsGrammatical st.dialect (lowerFields st ss fields)
  | [], _, _ => trivial
  | .mk key value :: rest, hfields, hr => by
    obtain ⟨hvalue, hrest⟩ := List.forall_mem_cons.mp hfields
    rw [Script.fieldsRegular, Bool.and_eq_true] at hr
    exact ⟨grammatical_collectIf (grammatical_lowerExpr st ss value hvalue hr.1),
      grammatical_lowerFields st ss rest hrest hr.2⟩

theorem grammatical_lowerInner (st : Setting) (ss : Scopes) : ∀ s : Stmt,
    Fits st.dialect (.stmt s) → s.isRegular = true →
      StmtsGrammatical st.dialect (lowerInner st ss s).1
  | .bind _ binding none _, hs, hr => by
    rw [Stmt.isRegular, Bool.not_eq_true'] at hr
    exact ⟨areNames_bindingNames hs.isSound hr, nofun, trivial⟩
  | .bind _ binding (some init) _, hs, hr => by
    rw [Stmt.isRegular, Bool.and_eq_true, Bool.not_eq_true'] at hr
    exact ⟨grammatical_declareWith (areNames_bindingNames hs.isSound hr.1) init
      (grammatical_lowerExpr st ss init (hs.part (.head _)) hr.2), nofun, trivial⟩
  | .function name params body _, hs, hr => by
    rw [Stmt.isRegular, Bool.and_eq_true] at hr
    exact ⟨⟨isName_nameOf hs.isSound.1, areParams_lowerParam hs.isSound.2 hr.1,
      stmtsGrammatical_packRest hs.isSound.2
        (grammatical_lowerStmts st _ body (Fits.of_forall fun _ => hs.part) hr.2)⟩, nofun, trivial⟩
  | .assign target value _, hs, hr => by
    rw [Stmt.isRegular, Bool.and_eq_true] at hr
    exact ⟨⟨isVariable_lowerExpr st ss hs.isSound,
      grammatical_lowerExpr st ss target (hs.part (.head _)) hr.1,
      grammatical_collectIf (grammatical_lowerExpr st ss value
        (hs.part (.tail _ (.head _))) hr.2)⟩, nofun, trivial⟩
  | .forOf binding iterable body _, hs, hr => by
    simp only [Stmt.isRegular, Bool.and_eq_true, Bool.not_eq_true'] at hr
    have hbody := grammatical_lowerInner st
      ([] :: Scopes.declareAll ([] :: ss) (bindingNames binding)) body
      (hs.part (.tail _ (.head _))) hr.2
    have hloop := grammatical_loop (areNames_bindingNames hs.isSound hr.1.1)
      (isIterable st ss iterable)
      (grammatical_lowerExpr st ss iterable (hs.part (.head _)) hr.1.2) hbody
    refine ⟨hloop, fun hresult => ?_, trivial⟩
    rfl
  | .cond test whenTrue whenFalse _, hs, hr => by
    simp only [Stmt.isRegular, Bool.and_eq_true] at hr
    have htest := grammatical_lowerExpr st ss test (hs.part (.head _)) hr.1.1
    have htrue := grammatical_lowerInner st ([] :: ss) whenTrue (hs.part (.tail _ (.head _))) hr.1.2
    have hfalse : ∀ s ∈ whenFalse, Fits st.dialect (.stmt s) := by
      intro s hmem
      exact hs.part (.tail _ (.tail _ (List.mem_map_of_mem (Option.mem_toList.mpr hmem))))
    exact ⟨⟨htest, htrue, grammatical_lowerElse st ss whenFalse hfalse hr.2⟩, nofun, trivial⟩
  | .result none _, _, _ => ⟨trivial, fun _ => rfl, trivial⟩
  | .result (some value) _, hs, hr =>
    ⟨grammatical_lowerExpr st ss value (hs.part (.head _)) hr, fun _ => rfl, trivial⟩
  | .block body _, hs, hr =>
    grammatical_lowerStmts st ss body (Fits.of_forall fun _ => hs.part) hr
  | .expr e, hs, hr => by
    rw [Stmt.isRegular, Bool.and_eq_true] at hr
    have he := grammatical_lowerExpr st ss e (hs.part (.head _)) hr.2
    rw [lowerInner]
    cases hcall : isCall e with
    | true =>
      have hgrouped : e.isGrouped = false := by simpa [hcall] using hr.1
      exact ⟨⟨isCall_lowerExpr st ss e hcall hgrouped, he⟩, nofun, trivial⟩
    | false => exact ⟨he, nofun, trivial⟩
  | .declare _ _, _, _ | .typeOnly _, _, _ | .empty _, _, _ => trivial

theorem grammatical_lowerElse (st : Setting) (ss : Scopes) : ∀ rest : Option Stmt,
    (∀ s ∈ rest, Fits st.dialect (.stmt s)) → Script.elseRegular rest = true →
      (lowerElse st ss rest).Grammatical st.dialect
  | none, _, _ => trivial
  | some (.cond test whenTrue whenFalse span), hrest, hr => by
    have hs : Fits st.dialect (.stmt (.cond test whenTrue whenFalse span)) := hrest _ rfl
    simp only [Script.elseRegular, Stmt.isRegular, Bool.and_eq_true] at hr
    have hfalse : ∀ s ∈ whenFalse, Fits st.dialect (.stmt s) := by
      intro s hmem
      exact hs.part (.tail _ (.tail _ (List.mem_map_of_mem (Option.mem_toList.mpr hmem))))
    exact ⟨grammatical_lowerExpr st ss test (hs.part (.head _)) hr.1.1,
      grammatical_lowerInner st ([] :: ss) whenTrue (hs.part (.tail _ (.head _))) hr.1.2,
      grammatical_lowerElse st ss whenFalse hfalse hr.2⟩
  | some (.bind _ _ _ _), hrest, hr | some (.function _ _ _ _), hrest, hr
  | some (.assign _ _ _), hrest, hr | some (.forOf _ _ _ _), hrest, hr
  | some (.result _ _), hrest, hr | some (.block _ _), hrest, hr | some (.expr _), hrest, hr
  | some (.declare _ _), hrest, hr | some (.typeOnly _), hrest, hr | some (.empty _), hrest, hr =>
    grammatical_lowerInner st _ _ (hrest _ rfl) hr

theorem grammatical_lowerStmts (st : Setting) (ss : Scopes) : ∀ body : List Stmt,
    (∀ s ∈ body, Fits st.dialect (.stmt s)) → Script.stmtsRegular body = true →
      StmtsGrammatical st.dialect (lowerStmts st ss body)
  | [], _, _ => trivial
  | s :: rest, hbody, hr => by
    obtain ⟨hs, hrest⟩ := List.forall_mem_cons.mp hbody
    simp only [Script.stmtsRegular, Bool.and_eq_true, Bool.or_eq_true, Bool.not_eq_true'] at hr
    have hmore := grammatical_lowerStmts st (lowerStmt st ss s).2 rest hrest hr.2
    have hfirst : StmtsGrammatical st.dialect (lowerStmt st ss s).1 := by
      rw [lowerStmt]
      split
      · exact ⟨grammatical_lowerInner st ([] :: ss) s hs hr.1.1, nofun, trivial⟩
      · exact grammatical_lowerInner st ss s hs hr.1.1
    rw [lowerStmts_cons]
    refine stmtsGrammatical_append hfirst hmore fun x hx hresult => ?_
    rcases hr.1.2 with hother | hsilent
    · rw [isResult_lowerStmt st ss hother x hx] at hresult
      cases hresult
    · exact lowerStmts_eq_nil st _ hsilent

end

/-- **A regular script is lowered to statements that are printed as Lua**, if the dialect lacks none of
its operators. -/
theorem grammatical_lower (st : Setting) {body : List Stmt} (hwell : ∀ s ∈ body, s.WellFormed)
    (hnone : stmtsReports st.dialect body = []) (hregular : Script.stmtsRegular body = true) :
    StmtsGrammatical st.dialect (lower st body) := by
  refine grammatical_lowerStmts st [[]] body (fun s hs y hy => ?_) hregular
  exact ⟨((hwell s hs).of_within hy).isSound, ownReports_eq_nil hnone hs hy⟩

end LuaSnippet.Lowering
