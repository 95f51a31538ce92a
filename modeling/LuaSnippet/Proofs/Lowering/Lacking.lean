import Mathlib.Logic.Basic
import LuaSnippet.Proofs.Script.WellFormed
import LuaSnippet.Lowering.Unsupported

/-!
# No lack goes unseen

Reports of what a dialect lacks are made at single operators. Whatever is reported for a phrase is
reported for its own operator or for one of its parts (`mem_phraseReports`), and so the walk of a
phrase passes over nothing that stands anywhere within it. A script without reports has no operator
that the dialect lacks (`expressible_of_stmtsReports`).
-/

namespace LuaSnippet.Lowering

open Script (UnaryOp BinaryOp Expr Arg Field Stmt Phrase)

variable {d : Dialect}

def phraseReports (d : Dialect) : Phrase → List Report
  | .expr e => exprReports d e
  | .stmt s => stmtReports d s

@[simp]
theorem phraseReports_expr (e : Expr) : phraseReports d (.expr e) = exprReports d e := rfl

@[simp]
theorem phraseReports_stmt (s : Stmt) : phraseReports d (.stmt s) = stmtReports d s := rfl

/-- The reports that are made for the operator of a phrase, not for one of its parts. -/
def ownReports (d : Dialect) : Phrase → List Report
  | .expr (.unary op _ span) => reportOf (unaryLack d op) span.start
  | .expr (.binary op lhs _) => reportOf (binaryLack d op) lhs.span.start
  | _ => []

theorem argsReports_eq (d : Dialect) (args : List Arg) :
    argsReports d args = args.flatMap fun a => exprReports d a.value := by
  induction args with
  | nil => rfl
  | cons a rest ih =>
    rw [argsReports, List.flatMap_cons, ih]
    cases a <;> rfl

theorem fieldsReports_eq (d : Dialect) (fields : List Field) :
    fieldsReports d fields = fields.flatMap fun f => exprReports d f.value := by
  induction fields with
  | nil => rfl
  | cons f rest ih =>
    rw [fieldsReports, List.flatMap_cons, ih]
    cases f
    rfl

theorem stmtsReports_eq (d : Dialect) (body : List Stmt) :
    stmtsReports d body = body.flatMap (stmtReports d) := by
  induction body with
  | nil => rfl
  | cons s rest ih => rw [stmtsReports, List.flatMap_cons, ih]

theorem optionReports_eq (d : Dialect) (e : Option Expr) :
    optionReports d e = e.toList.flatMap (exprReports d) := by
  cases e with
  | none => rfl
  | some e => exact (List.flatMap_singleton _ e).symm

theorem elseReports_eq (d : Dialect) (s : Option Stmt) :
    elseReports d s = s.toList.flatMap (stmtReports d) := by
  cases s with
  | none => rfl
  | some s => exact (List.flatMap_singleton _ s).symm

/-- The reports of a phrase are those for its operator and those of its parts. -/
theorem phraseReports_perm (x : Phrase) :
    (phraseReports d x).Perm (ownReports d x ++ x.parts.flatMap (phraseReports d)) := by
  cases x with
  | expr e =>
    cases e with
    | unary op operand span =>
      simpa [ownReports, exprReports, Phrase.parts] using List.perm_append_comm
    | _ =>
      simp [ownReports, exprReports, Phrase.parts, argsReports_eq, fieldsReports_eq,
        stmtsReports_eq, List.flatMap_map]
  | stmt s =>
    cases s <;> simp [ownReports, stmtReports, Phrase.parts, stmtsReports_eq, optionReports_eq,
      elseReports_eq, List.flatMap_map]

theorem mem_phraseReports {x : Phrase} {r : Report} :
    r ∈ phraseReports d x ↔ r ∈ ownReports d x ∨ ∃ y ∈ x.parts, r ∈ phraseReports d y := by
  rw [(phraseReports_perm x).mem_iff, List.mem_append, List.mem_flatMap]

theorem phraseReports_within {x y : Phrase} (h : y.Within x) :
    ∀ r ∈ phraseReports d y, r ∈ phraseReports d x := by
  induction h with
  | refl => exact fun r hr => hr
  | part hz _ ih => exact fun r hr => mem_phraseReports.mpr (.inr ⟨_, hz, ih r hr⟩)

theorem reportOf_eq_nil {lack : Option Lack} {offset : Nat} (h : reportOf lack offset = []) :
    lack = none := by
  cases lack with
  | none => rfl
  | some l => simp [reportOf] at h

variable {body : List Stmt} {s : Stmt}

theorem ownReports_eq_nil (hnone : stmtsReports d body = []) (hs : s ∈ body) {x : Phrase}
    (hx : x.Within (.stmt s)) : ownReports d x = [] := by
  refine List.eq_nil_iff_forall_not_mem.mpr fun r hr => ?_
  have hreport : r ∈ phraseReports d (.stmt s) :=
    phraseReports_within hx r (mem_phraseReports.mpr (.inl hr))
  rw [stmtsReports_eq, List.flatMap_eq_nil_iff] at hnone
  rw [phraseReports, hnone s hs] at hreport
  exact absurd hreport List.not_mem_nil

theorem binaryLack_eq_none (hnone : stmtsReports d body = []) (hs : s ∈ body) {op : BinaryOp}
    {lhs rhs : Expr} (hx : (Phrase.expr (.binary op lhs rhs)).Within (.stmt s)) :
    binaryLack d op = none :=
  reportOf_eq_nil (ownReports_eq_nil hnone hs hx)

theorem unaryLack_eq_none (hnone : stmtsReports d body = []) (hs : s ∈ body) {op : UnaryOp}
    {operand : Expr} {span : Script.Span}
    (hx : (Phrase.expr (.unary op operand span)).Within (.stmt s)) : unaryLack d op = none :=
  reportOf_eq_nil (ownReports_eq_nil hnone hs hx)

/-- A script has no operator that a dialect lacks, however deep in an expression or a function. -/
structure Expressible (d : Dialect) (body : List Stmt) : Prop where
  /-- Lua 5.1 has no operations on bits. -/
  bits : d = .lua51 → ∀ s ∈ body,
    (∀ op lhs rhs, (Phrase.expr (.binary op lhs rhs)).Within (.stmt s) → op.isBitwise = false) ∧
    ∀ op operand span, (Phrase.expr (.unary op operand span)).Within (.stmt s) → op ≠ .bitNot
  /-- Lua 5.3 has no shift to the right that keeps the sign. -/
  shift : d = .lua53 → ∀ s ∈ body, ∀ op lhs rhs,
    (Phrase.expr (.binary op lhs rhs)).Within (.stmt s) → op ≠ .shr

/-- **A script without reports has no operator that the dialect lacks.** -/
theorem expressible_of_stmtsReports (hnone : stmtsReports d body = []) : Expressible d body where
  bits := by
    rintro rfl s hs
    refine ⟨fun op lhs rhs hx => ?_, fun op operand span hx hop => ?_⟩
    · have hlack := binaryLack_eq_none hnone hs hx
      simpa [binaryLack] using hlack
    · have hlack := unaryLack_eq_none hnone hs hx
      simp [unaryLack, hop] at hlack
  shift := by
    rintro rfl s hs op lhs rhs hx hop
    have hlack := binaryLack_eq_none hnone hs hx
    simp [binaryLack, hop] at hlack

end LuaSnippet.Lowering
