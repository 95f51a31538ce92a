import Mathlib.Data.List.Perm.Basic
import LuaSnippet.Proofs.Script.Site
import LuaSnippet.Proofs.Script.WellFormed

/-!
# Occurrences of phrases

Every expression and every statement of a script is listed, with the way that leads to it. A phrase is
listed before its parts, and its parts one after the other, so that what occurs in a phrase is the
phrase itself and what occurs in its parts (`Occurrence.all_eq`).
-/

namespace LuaSnippet.Script

/-- A phrase with the way that leads to it. -/
structure Occurrence where
  phrase : Phrase
  way : Way

mutual

def exprOccurrences (w : Way) : Expr → List Occurrence
  | .number text span => [⟨.expr (.number text span), w⟩]
  | .string value span => [⟨.expr (.string value span), w⟩]
  | .bool value span => [⟨.expr (.bool value span), w⟩]
  | .absent span => [⟨.expr (.absent span), w⟩]
  | .ident id => [⟨.expr (.ident id), w⟩]
  | .array elements span => ⟨.expr (.array elements span), w⟩ :: argsOccurrences w elements
  | .object fields span => ⟨.expr (.object fields span), w⟩ :: fieldsOccurrences w fields
  | .call callee args span =>
    ⟨.expr (.call callee args span), w⟩ :: (exprOccurrences w callee ++ argsOccurrences w args)
  | .member owner property => ⟨.expr (.member owner property), w⟩ :: exprOccurrences w owner
  | .nonNull inner => ⟨.expr (.nonNull inner), w⟩ :: exprOccurrences w inner
  | .paren inner span => ⟨.expr (.paren inner span), w⟩ :: exprOccurrences w inner
  | .unary op operand span => ⟨.expr (.unary op operand span), w⟩ :: exprOccurrences w operand
  | .binary op lhs rhs =>
    ⟨.expr (.binary op lhs rhs), w⟩ :: (exprOccurrences w lhs ++ exprOccurrences w rhs)
  | .arrow params value span =>
    ⟨.expr (.arrow params value span), w⟩ :: exprOccurrences (w.arrow params) value
  | .closure params body span =>
    ⟨.expr (.closure params body span), w⟩ :: stmtsOccurrences (w.closure params body) body

def argOccurrences (w : Way) : Arg → List Occurrence
  | .plain value => exprOccurrences w value
  | .spread value => exprOccurrences w value

def argsOccurrences (w : Way) : List Arg → List Occurrence
  | [] => []
  | a :: rest => argOccurrences w a ++ argsOccurrences w rest

def fieldOccurrences (w : Way) : Field → List Occurrence
  | .mk _ value => exprOccurrences w value

def fieldsOccurrences (w : Way) : List Field → List Occurrence
  | [] => []
  | f :: rest => fieldOccurrences w f ++ fieldsOccurrences w rest

/-- The phrases that occur in an expression that may be missing. -/
def optionOccurrences (w : Way) : Option Expr → List Occurrence
  | none => []
  | some e => exprOccurrences w e

/-- The phrases that occur in a statement that the way leads into, if it is a block. -/
def innerOccurrences (w : Way) : Stmt → List Occurrence
  | .bind kind binding init span =>
    ⟨.stmt (.bind kind binding init span), w⟩ :: optionOccurrences w init
  | .function name params body span =>
    ⟨.stmt (.function name params body span), w⟩ ::
      stmtsOccurrences (w.function name params body) body
  | .assign target value span =>
    ⟨.stmt (.assign target value span), w⟩ :: (exprOccurrences w target ++ exprOccurrences w value)
  | .forOf binding iterable body span =>
    ⟨.stmt (.forOf binding iterable body span), w⟩ ::
      (exprOccurrences w iterable ++ innerOccurrences (w.loop binding body) body)
  | .cond test whenTrue whenFalse span =>
    ⟨.stmt (.cond test whenTrue whenFalse span), w⟩ ::
      (exprOccurrences w test ++ (innerOccurrences (w.branch whenTrue) whenTrue ++
        elseOccurrences w whenFalse))
  | .result value span => ⟨.stmt (.result value span), w⟩ :: optionOccurrences w value
  | .block body span => ⟨.stmt (.block body span), w⟩ :: stmtsOccurrences w body
  | .expr e => ⟨.stmt (.expr e), w⟩ :: exprOccurrences w e
  | .declare declaration span => [⟨.stmt (.declare declaration span), w⟩]
  | .typeOnly span => [⟨.stmt (.typeOnly span), w⟩]
  | .empty span => [⟨.stmt (.empty span), w⟩]

/-- The phrases that occur in a second branch, if there is one. -/
def elseOccurrences (w : Way) : Option Stmt → List Occurrence
  | none => []
  | some s => innerOccurrences (w.otherwise s) s

def stmtsOccurrences (w : Way) : List Stmt → List Occurrence
  | [] => []
  | s :: rest => innerOccurrences (w.toward s) s ++ stmtsOccurrences (w.past s) rest

end

/-- The phrases that occur in a script. -/
def occurrences (body : List Stmt) : List Occurrence :=
  stmtsOccurrences (.file body) body

/-! ### Occurrences part by part -/

namespace Occurrence

/-- The phrases that occur in the phrase at a place. -/
def all (o : Occurrence) : List Occurrence :=
  match o.phrase with
  | .expr e => exprOccurrences o.way e
  | .stmt s => innerOccurrences o.way s

/-- The values of some arguments at a place. -/
def ofArgs (w : Way) (args : List Arg) : List Occurrence :=
  args.map fun a => ⟨.expr a.value, w⟩

def ofFields (w : Way) (fields : List Field) : List Occurrence :=
  fields.map fun f => ⟨.expr f.value, w⟩

/-- An expression at a place, if there is one. -/
def ofOption (w : Way) (e : Option Expr) : List Occurrence :=
  e.toList.map fun e => ⟨.expr e, w⟩

/-- A second branch at a place, if there is one. -/
def ofElse (w : Way) (s : Option Stmt) : List Occurrence :=
  s.toList.map fun s => ⟨.stmt s, w.otherwise s⟩

def ofStmts (w : Way) : List Stmt → List Occurrence
  | [] => []
  | s :: rest => ⟨.stmt s, w.toward s⟩ :: ofStmts (w.past s) rest

/-- The parts of the phrase at a place, each with the way that leads on to it. -/
def parts (o : Occurrence) : List Occurrence :=
  match o.phrase with
  | .expr (.array elements _) => ofArgs o.way elements
  | .expr (.object fields _) => ofFields o.way fields
  | .expr (.call callee args _) => ⟨.expr callee, o.way⟩ :: ofArgs o.way args
  | .expr (.member inner _) | .expr (.nonNull inner) | .expr (.paren inner _)
  | .expr (.unary _ inner _) | .stmt (.expr inner) => [⟨.expr inner, o.way⟩]
  | .expr (.binary _ first second) | .stmt (.assign first second _) =>
    [⟨.expr first, o.way⟩, ⟨.expr second, o.way⟩]
  | .expr (.arrow params value _) => [⟨.expr value, o.way.arrow params⟩]
  | .expr (.closure params body _) => ofStmts (o.way.closure params body) body
  | .stmt (.function name params body _) => ofStmts (o.way.function name params body) body
  | .stmt (.bind _ _ value _) | .stmt (.result value _) => ofOption o.way value
  | .stmt (.forOf binding iterable body _) =>
    [⟨.expr iterable, o.way⟩, ⟨.stmt body, o.way.loop binding body⟩]
  | .stmt (.cond test whenTrue whenFalse _) =>
    ⟨.expr test, o.way⟩ :: ⟨.stmt whenTrue, o.way.branch whenTrue⟩ :: ofElse o.way whenFalse
  | .stmt (.block body _) => ofStmts o.way body
  | _ => []

theorem phrase_ofStmts (w : Way) (body : List Stmt) :
    (ofStmts w body).map phrase = body.map Phrase.stmt := by
  induction body generalizing w with
  | nil => rfl
  | cons s rest ih => rw [ofStmts, List.map_cons, List.map_cons, ih]

theorem phrase_parts (o : Occurrence) : o.parts.map phrase = o.phrase.parts := by
  obtain ⟨x, w⟩ := o
  cases x with
  | expr e =>
    cases e <;> simp [parts, Phrase.parts, ofArgs, ofFields, phrase_ofStmts, Function.comp_def]
  | stmt s =>
    cases s <;> simp [parts, Phrase.parts, ofOption, ofElse, phrase_ofStmts, Function.comp_def]

theorem all_ofArgs (w : Way) (args : List Arg) :
    (ofArgs w args).flatMap all = argsOccurrences w args := by
  induction args with
  | nil => rfl
  | cons a rest ih =>
    rw [argsOccurrences, ← ih]
    cases a <;> rfl

theorem all_ofFields (w : Way) (fields : List Field) :
    (ofFields w fields).flatMap all = fieldsOccurrences w fields := by
  induction fields with
  | nil => rfl
  | cons f rest ih =>
    rw [fieldsOccurrences, ← ih]
    cases f
    rfl

theorem all_ofOption (w : Way) (e : Option Expr) :
    (ofOption w e).flatMap all = optionOccurrences w e := by
  cases e with
  | none => rfl
  | some e => exact List.append_nil _

theorem all_ofElse (w : Way) (s : Option Stmt) :
    (ofElse w s).flatMap all = elseOccurrences w s := by
  cases s with
  | none => rfl
  | some s => exact List.append_nil _

theorem all_ofStmts (w : Way) (body : List Stmt) :
    (ofStmts w body).flatMap all = stmtsOccurrences w body := by
  induction body generalizing w with
  | nil => rfl
  | cons s rest ih =>
    rw [stmtsOccurrences, ← ih]
    rfl

/-- **In a phrase occur the phrase itself and what occurs in its parts.** -/
theorem all_eq (o : Occurrence) : o.all = o :: o.parts.flatMap all := by
  obtain ⟨x, w⟩ := o
  cases x with
  | expr e =>
    cases e <;> simp [all, parts, exprOccurrences, all_ofArgs, all_ofFields, all_ofStmts]
  | stmt s =>
    cases s <;> simp [all, parts, innerOccurrences, all_ofOption, all_ofElse, all_ofStmts]

end Occurrence

/-! ### Gathering part by part -/

/-- Whether something holds of every phrase whose parts it holds of. -/
def Phrase.Inductive (P : Phrase → Prop) : Prop :=
  ∀ x : Phrase, (∀ y ∈ x.parts, P y) → P x

section Induction

variable {P : Phrase → Prop}

mutual

theorem forall_expr (step : Phrase.Inductive P) : ∀ e : Expr, P (.expr e)
  | .number _ _ | .string _ _ | .bool _ _ | .absent _ | .ident _ => step _ (List.forall_mem_nil _)
  | .array elements _ => step _ (List.forall_mem_map.mpr (forall_args step elements))
  | .object fields _ => step _ (List.forall_mem_map.mpr (forall_fields step fields))
  | .call callee args _ =>
    step _ (List.forall_mem_cons.mpr
      ⟨forall_expr step callee, List.forall_mem_map.mpr (forall_args step args)⟩)
  | .member inner _ | .nonNull inner | .paren inner _ | .unary _ inner _ | .arrow _ inner _ =>
    step _ (List.forall_mem_singleton.mpr (forall_expr step inner))
  | .binary _ lhs rhs =>
    step _ (List.forall_mem_cons.mpr
      ⟨forall_expr step lhs, List.forall_mem_singleton.mpr (forall_expr step rhs)⟩)
  | .closure _ body _ => step _ (List.forall_mem_map.mpr (forall_stmts step body))

theorem forall_arg (step : Phrase.Inductive P) : ∀ a : Arg, P (.expr a.value)
  | .plain value | .spread value => forall_expr step value

theorem forall_args (step : Phrase.Inductive P) : ∀ args : List Arg, ∀ a ∈ args, P (.expr a.value)
  | [] => List.forall_mem_nil _
  | a :: rest => List.forall_mem_cons.mpr ⟨forall_arg step a, forall_args step rest⟩

theorem forall_field (step : Phrase.Inductive P) : ∀ f : Field, P (.expr f.value)
  | .mk _ value => forall_expr step value

theorem forall_fields (step : Phrase.Inductive P) :
    ∀ fields : List Field, ∀ f ∈ fields, P (.expr f.value)
  | [] => List.forall_mem_nil _
  | f :: rest => List.forall_mem_cons.mpr ⟨forall_field step f, forall_fields step rest⟩

theorem forall_stmt (step : Phrase.Inductive P) : ∀ s : Stmt, P (.stmt s)
  | .bind _ _ none _ | .result none _ | .declare _ _ | .typeOnly _ | .empty _ =>
    step _ (List.forall_mem_nil _)
  | .bind _ _ (some value) _ | .result (some value) _ | .expr value =>
    step _ (List.forall_mem_singleton.mpr (forall_expr step value))
  | .function _ _ body _ | .block body _ => step _ (List.forall_mem_map.mpr (forall_stmts step body))
  | .assign target value _ =>
    step _ (List.forall_mem_cons.mpr
      ⟨forall_expr step target, List.forall_mem_singleton.mpr (forall_expr step value)⟩)
  | .forOf _ iterable body _ =>
    step _ (List.forall_mem_cons.mpr
      ⟨forall_expr step iterable, List.forall_mem_singleton.mpr (forall_stmt step body)⟩)
  | .cond test whenTrue none _ =>
    step _ (List.forall_mem_cons.mpr
      ⟨forall_expr step test, List.forall_mem_singleton.mpr (forall_stmt step whenTrue)⟩)
  | .cond test whenTrue (some whenFalse) _ =>
    step _ (List.forall_mem_cons.mpr ⟨forall_expr step test, List.forall_mem_cons.mpr
      ⟨forall_stmt step whenTrue, List.forall_mem_singleton.mpr (forall_stmt step whenFalse)⟩⟩)

theorem forall_stmts (step : Phrase.Inductive P) : ∀ body : List Stmt, ∀ s ∈ body, P (.stmt s)
  | [] => List.forall_mem_nil _
  | s :: rest => List.forall_mem_cons.mpr ⟨forall_stmt step s, forall_stmts step rest⟩

end

/-- What holds of a phrase as soon as it holds of its parts holds of every phrase. -/
theorem Phrase.Inductive.forall (step : Phrase.Inductive P) : ∀ x : Phrase, P x
  | .expr e => forall_expr step e
  | .stmt s => forall_stmt step s

end Induction

/-- **What a walk gathers from a phrase is what the phrases that occur in it give**, if the walk gathers
from a phrase what the phrase itself gives, and what it gathers from the parts. -/
theorem Occurrence.gather_perm {α : Type} {gather own : Phrase → List α}
    (hstep : ∀ x, (gather x).Perm (own x ++ x.parts.flatMap gather)) (o : Occurrence) :
    (gather o.phrase).Perm (o.all.flatMap fun p => own p.phrase) := by
  suffices h : ∀ x : Phrase, ∀ o : Occurrence, o.phrase = x →
      (gather x).Perm (o.all.flatMap fun p => own p.phrase) from h _ o rfl
  refine Phrase.Inductive.forall fun x ih o ho => ?_
  subst ho
  have hparts : (o.phrase.parts.flatMap gather).Perm
      ((o.parts.flatMap all).flatMap fun p => own p.phrase) := by
    rw [← phrase_parts, List.flatMap_map, List.flatMap_assoc]
    refine List.Perm.flatMap_left _ fun p hp => ih p.phrase ?_ p rfl
    rw [← phrase_parts]
    exact List.mem_map_of_mem hp
  rw [all_eq, List.flatMap_cons]
  exact (hstep o.phrase).trans (hparts.append_left _)

theorem gather_occurrences {α : Type} {gather own : Phrase → List α}
    (hstep : ∀ x, (gather x).Perm (own x ++ x.parts.flatMap gather)) (body : List Stmt) :
    (body.flatMap fun s => gather (.stmt s)).Perm
      ((occurrences body).flatMap fun o => own o.phrase) := by
  have hstmts : (body.flatMap fun s => gather (.stmt s)) =
      (Occurrence.ofStmts (.file body) body).flatMap fun o => gather o.phrase := by
    rw [← List.flatMap_map Phrase.stmt gather, ← Occurrence.phrase_ofStmts (.file body),
      List.flatMap_map]
  rw [hstmts, occurrences, ← Occurrence.all_ofStmts, List.flatMap_assoc]
  exact List.Perm.flatMap_left _ fun o _ => Occurrence.gather_perm hstep o

end LuaSnippet.Script
