import LuaSnippet.Proofs.Lowering.Printed

/-!
# Lowering keeps its context

A printer goes through a script with one state. What is printed in between must not be noticed
around it: an expression leaves the text, the depth and the scopes as it finds them, and a statement
only adds to the text and to the innermost scope. The two laws need each other, since a closure has
statements in an expression and nearly every statement has expressions.

Both are relations between the states before and after, `Printer.Kept` and `Printer.Written`. They
are transitive, so that actions can be put together (`Keeps.bind`, `Writes.bind`), and everything
that is opened and closed again has one law that says what of the relation comes out
(`Writes.deeper`, `Writes.within`, `Writes.aside`). Nothing is asked of the trees.
-/

namespace LuaSnippet.Lowering

open Script (UnaryOp BinaryOp Expr Arg Field Stmt Param Binding declaredNames)
open Printing (declare deeper within aside)

/-! ### What an action leaves of a printer -/

/-- How a printer is left by an expression: what is written, the depth and the scopes are as they
were, and diagnostics are only added. -/
structure Printer.Kept (p q : Printer) : Prop where
  out : q.out = p.out
  depth : q.depth = p.depth
  scopes : q.scopes = p.scopes
  diagnostics : p.diagnostics <+: q.diagnostics

/-- How a printer is left by a statement that declares some names: text and diagnostics are only
added, the depth is as it was, and the names are declared in the innermost scope. -/
structure Printer.Written (names : List String) (p q : Printer) : Prop where
  out : ∃ text, q.out = p.out ++ text
  depth : q.depth = p.depth
  scopes : q.scopes = p.scopes.declareAll names
  diagnostics : p.diagnostics <+: q.diagnostics

variable {p q r : Printer} {names names' : List String}

namespace Printer

theorem Kept.refl (p : Printer) : p.Kept p := ⟨rfl, rfl, rfl, List.prefix_rfl⟩

theorem Kept.trans (hq : p.Kept q) (hr : q.Kept r) : p.Kept r where
  out := hr.out.trans hq.out
  depth := hr.depth.trans hq.depth
  scopes := hr.scopes.trans hq.scopes
  diagnostics := hq.diagnostics.trans hr.diagnostics

theorem Kept.exists_eq (hq : p.Kept q) :
    ∃ more, q = { p with diagnostics := p.diagnostics ++ more } := by
  obtain ⟨more, hmore⟩ := hq.diagnostics
  exact ⟨more, Printer.ext hq.out hq.depth hq.scopes hmore.symm⟩

theorem Kept.written (hq : p.Kept q) : p.Written [] q where
  out := ⟨"", by rw [hq.out, String.append_empty]⟩
  depth := hq.depth
  scopes := hq.scopes
  diagnostics := hq.diagnostics

theorem Written.trans (hq : p.Written names q) (hr : q.Written names' r) :
    p.Written (names ++ names') r where
  out := by
    obtain ⟨text, htext⟩ := hq.out
    obtain ⟨text', htext'⟩ := hr.out
    exact ⟨text ++ text', by rw [htext', htext, String.append_assoc]⟩
  depth := hr.depth.trans hq.depth
  scopes := by rw [hr.scopes, hq.scopes, declareAll_append]
  diagnostics := hq.diagnostics.trans hr.diagnostics

theorem Written.exists_eq {out : String} {depth : Nat} {inner : List String} {outer : Scopes}
    {ds : List Diagnostic} (hq : Written names ⟨out, depth, inner :: outer, ds⟩ q) :
    ∃ lines inner' more, q = ⟨out ++ lines, depth, inner' :: outer, ds ++ more⟩ ∧
      ∀ x, x ∈ inner' ↔ x ∈ names ∨ x ∈ inner := by
  obtain ⟨lines, hlines⟩ := hq.out
  obtain ⟨more, hmore⟩ := hq.diagnostics
  obtain ⟨inner', hinner, hnames⟩ := declareAll_cons names inner outer
  exact ⟨lines, inner', more,
    Printer.ext hlines hq.depth (hq.scopes.trans hinner) hmore.symm, hnames⟩

end Printer

variable {α β : Type} {m : Printing α} {f : α → Printing β}

/-- Whether an action keeps the context: it is one that an expression may be printed by. -/
def Keeps (m : Printing α) : Prop := ∀ p : Printer, p.Kept (m.run p).2

/-- Whether an action is one that a statement with some names may be printed by. -/
def Writes (names : List String) (m : Printing α) : Prop :=
  ∀ p : Printer, p.Written names (m.run p).2

namespace Keeps

theorem pure (a : α) : Keeps (pure a) := Printer.Kept.refl

theorem get : Keeps get := Printer.Kept.refl

theorem bind (hm : Keeps m) (hf : ∀ a, Keeps (f a)) : Keeps (m >>= f) :=
  fun p => (hm p).trans (hf _ _)

theorem writes (hm : Keeps m) : Writes [] m := fun p => (hm p).written

theorem next (hm : Keeps m) (hf : ∀ a, Writes names (f a)) : Writes names (m >>= f) :=
  fun p => (hm p).written.trans (hf _ _)

end Keeps

namespace Writes

theorem bind (hm : Writes names m) (hf : ∀ a, Writes names' (f a)) :
    Writes (names ++ names') (m >>= f) :=
  fun p => (hm p).trans (hf _ _)

theorem next (hm : Writes names m) (hf : ∀ a, Writes [] (f a)) : Writes names (m >>= f) :=
  List.append_nil names ▸ hm.bind hf

theorem deeper (hm : Writes names m) : Writes names (deeper m) := fun p =>
  have hinner := hm { p with depth := p.depth + 1 }
  { hinner with
    depth := by
      show (m.run _).2.depth - 1 = p.depth
      rw [hinner.depth, Nat.add_sub_cancel] }

theorem within (hm : Writes names m) (own : List String) : Writes [] (within own m) := fun p =>
  have hinner := hm { p with scopes := own :: p.scopes }
  { hinner with
    scopes := by
      show (m.run _).2.scopes.tail = p.scopes
      rw [hinner.scopes, tail_declareAll] }

theorem aside {m : Printing Unit} (hm : Writes [] m) : Keeps (aside m) := fun p =>
  have hinner := hm { p with out := "" }
  { hinner with out := rfl }

end Writes

theorem Keeps.within (hm : Keeps m) (own : List String) : Keeps (within own m) := fun p =>
  have hinner := hm { p with scopes := own :: p.scopes }
  { hinner with scopes := congrArg List.tail hinner.scopes }

theorem writes_declare (names : List String) : Writes names (declare names) := fun _ =>
  ⟨⟨"", (String.append_empty).symm⟩, rfl, rfl, List.prefix_rfl⟩

/-! ### What a job does -/

variable (job : Job)

theorem writes_line (text : String) : Writes [] (job.line text) := fun _ =>
  ⟨⟨_, rfl⟩, rfl, rfl, List.prefix_rfl⟩

theorem keeps_report (lack : Option Lack) (offset : Nat) : Keeps (job.report lack offset) :=
  fun _ => ⟨rfl, rfl, rfl, List.prefix_append _ _⟩

theorem writes_pack (params : List Param) : Writes [] (job.pack params) := by
  unfold Job.pack
  split
  · exact writes_line job _
  · exact (Keeps.pure ()).writes

variable {job} {body : Printing Unit} {act : Printing String}

theorem Writes.nested (hbody : Writes names body) (params : List Param) :
    Writes [] (job.nested params body) :=
  (((writes_pack job params).bind fun _ => hbody).within _).deeper

theorem Writes.block (hbody : Writes names body) : Writes [] (job.block body) :=
  (writes_line job _).next fun _ => (hbody.nested []).next fun _ => writes_line job _

theorem Keeps.single (hact : Keeps act) (e : Expr) : Keeps (job.single e act) :=
  hact.bind fun _ => Keeps.get.bind fun _ => .pure _

theorem Keeps.spread (hact : Keeps act) (e : Expr) : Keeps (job.spread e act) :=
  Keeps.get.bind fun _ => hact.bind fun _ => .pure _

theorem writes_loopHead (b : Binding) (iterable : Bool) (text : String) :
    Writes [] (job.loopHead b iterable text) := by
  unfold Job.loopHead
  split
  · exact writes_line job _
  · split
    · exact (writes_line job _).next fun _ => (writes_line job _).deeper
    · exact writes_line job _

/-! ### Expressions and statements -/

theorem Writes.stmt {s : Stmt} (hs : Writes (innerNames s) (printInner job s)) :
    Writes (declaredNames s) (printStmt job s) := by
  cases s with
  | block => exact hs.block
  | _ => exact hs

mutual

theorem keeps_printExpr (job : Job) : ∀ e : Expr, Keeps (printExpr job e)
  | .number _ _ | .string _ _ | .bool _ _ | .absent _ | .ident _ => .pure _
  | .array elements _ => (keeps_printArgs job elements).bind fun _ => .pure _
  | .object fields _ => (keeps_printFields job fields).bind fun _ => .pure _
  | .call callee args _ =>
    (keeps_printExpr job callee).bind fun _ => (keeps_printArgs job args).bind fun _ => .pure _
  | .member owner _ => (keeps_printExpr job owner).bind fun _ => .pure _
  | .nonNull inner => keeps_printExpr job inner
  | .paren inner _ => (keeps_printExpr job inner).bind fun _ => .pure _
  | .unary op operand _ => by
    have hoperand := keeps_printExpr job operand
    refine hoperand.bind fun text => ?_
    cases op with
    | not | neg => exact .pure _
    | bitNot =>
      dsimp only
      split
      · exact hoperand.bind fun _ => .pure _
      · exact (keeps_report job _ _).bind fun _ => .pure _
  | .binary _ lhs rhs =>
    (keeps_report job _ _).bind fun _ => (keeps_printExpr job lhs).bind fun _ =>
      (keeps_printExpr job rhs).bind fun _ => .pure _
  | .arrow _ value _ => ((keeps_printExpr job value).within _).bind fun _ => .pure _
  | .closure params body _ =>
    -- The statements write, but aside.
    ((writes_printStmts job body).nested params).aside.bind fun _ => Keeps.get.bind fun _ => .pure _

theorem keeps_printArg (job : Job) : ∀ a : Arg, Keeps (printArg job a)
  | .plain value => (keeps_printExpr job value).single value
  | .spread value => (keeps_printExpr job value).spread value

theorem keeps_printArgs (job : Job) : ∀ args : List Arg, Keeps (printArgs job args)
  | [] => .pure _
  | a :: rest =>
    (keeps_printArg job a).bind fun _ => (keeps_printArgs job rest).bind fun _ => .pure _

theorem keeps_printField (job : Job) : ∀ f : Field, Keeps (printField job f)
  | .mk _ value => ((keeps_printExpr job value).single value).bind fun _ => .pure _

theorem keeps_printFields (job : Job) : ∀ fields : List Field, Keeps (printFields job fields)
  | [] => .pure _
  | f :: rest =>
    (keeps_printField job f).bind fun _ => (keeps_printFields job rest).bind fun _ => .pure _

theorem writes_printInner (job : Job) : ∀ s : Stmt, Writes (innerNames s) (printInner job s)
  | .bind _ _ none _ => (writes_declare _).next fun _ => writes_line job _
  | .bind _ binding (some init) _ => by
    have hinit := keeps_printExpr job init
    refine Keeps.next ?_ fun text => (writes_declare _).next fun _ => writes_line job _
    split
    · exact hinit.spread init
    · exact hinit.single init
  | .function name params body _ =>
    (writes_declare [name.name]).next fun _ => (writes_line job _).next fun _ =>
      ((writes_printStmts job body).nested params).next fun _ => writes_line job _
  | .assign target value _ =>
    (keeps_printExpr job target).next fun _ => ((keeps_printExpr job value).single value).next
      fun _ => writes_line job _
  | .forOf binding iterable body _ => by
    refine (keeps_printExpr job iterable).next fun _ => Keeps.get.next fun _ =>
      Writes.next ?_ fun _ => writes_line job _
    -- The names of the loop have a scope of their own around that of its body.
    exact ((writes_declare _).next fun _ => (writes_loopHead binding _ _).next fun _ =>
      (writes_printInner job body).nested []).within []
  | .cond test whenTrue whenFalse _ =>
    (keeps_printExpr job test).next fun _ => (writes_line job _).next fun _ =>
      ((writes_printInner job whenTrue).nested []).next fun _ => writes_printElse job whenFalse
  | .result none _ => writes_line job _
  | .result (some value) _ => (keeps_printExpr job value).next fun _ => writes_line job _
  | .block body _ => writes_printStmts job body
  | .expr e => (keeps_printExpr job e).next fun _ => writes_line job _
  | .declare _ _ | .typeOnly _ | .empty _ => (Keeps.pure ()).writes

theorem writes_printElse (job : Job) : ∀ rest : Option Stmt, Writes [] (printElse job rest)
  | none => writes_line job _
  | some (.cond test whenTrue whenFalse _) =>
    (keeps_printExpr job test).next fun _ => (writes_line job _).next fun _ =>
      ((writes_printInner job whenTrue).nested []).next fun _ => writes_printElse job whenFalse
  | some (.bind _ _ _ _) | some (.function _ _ _ _) | some (.assign _ _ _)
  | some (.forOf _ _ _ _) | some (.result _ _) | some (.block _ _) | some (.expr _)
  | some (.declare _ _) | some (.typeOnly _) | some (.empty _) =>
    (writes_line job _).next fun _ => ((writes_printInner job _).nested []).next fun _ =>
      writes_line job _

theorem writes_printStmts (job : Job) : ∀ body : List Stmt,
    Writes (body.flatMap declaredNames) (printStmts job body)
  | [] => (Keeps.pure ()).writes
  | s :: rest => (writes_printInner job s).stmt.bind fun _ => writes_printStmts job rest

end

/-- **Lowering keeps its context.** Whatever state a printer of a file is in, an expression leaves the
text, the depth and all scopes as they are and only adds diagnostics. A statement adds lines and
diagnostics, and of the scopes, whose number stays, only the innermost gets more names: those that
the statement declares itself. Gone through in this way from its start, a file gives the Lua text and
the diagnostics that the program emits for it. -/
theorem lowering_keeps_context (program : Program) (name text : String) (edition : Script.Edition) :
    let file := Script.File.read name text edition
    let job := program.job file
    (∀ (e : Expr) (p : Printer), ∃ shown more,
      (printExpr job e).run p = (shown, { p with diagnostics := p.diagnostics ++ more })) ∧
    (∀ (s : Stmt) (out : String) (depth : Nat) (inner : List String) (outer : Scopes)
        (ds : List Diagnostic), ∃ lines inner' more,
      (printStmt job s).run ⟨out, depth, inner :: outer, ds⟩ =
        ((), ⟨out ++ lines, depth, inner' :: outer, ds ++ more⟩) ∧
      ∀ x, x ∈ inner' ↔ x ∈ declaredNames s ∨ x ∈ inner) ∧
    ∃ names, (printStmts job file.statements).run .start =
      ((), ⟨program.luaText file, 0, [names], program.lacking file⟩) := by
  intro file job
  refine ⟨fun e p => ?_, fun s out depth inner outer ds => ?_, ?_⟩
  · obtain ⟨more, hmore⟩ := (keeps_printExpr job e p).exists_eq
    exact ⟨_, more, Prod.ext rfl hmore⟩
  · obtain ⟨lines, inner', more, hafter, hnames⟩ := ((writes_printInner job s).stmt _).exists_eq
    exact ⟨lines, inner', more, Prod.ext rfl hafter, hnames⟩
  · obtain ⟨names, hdeclared, -⟩ := declareAll_cons (file.statements.flatMap declaredNames) [] []
    exact ⟨names, hdeclared ▸ run_printStmts program name text edition⟩

/-- The lines of a closure are written aside, two levels deep, while the statement around it waits to
be written. -/
example : (printStmt ⟨⟨.lua51, []⟩, "\n", "input.ts", "const f = () => { const b = ~1; };"⟩
      (.bind .constWord (.single ⟨"f", ⟨6, 7⟩⟩) (some (.closure []
        [.bind .constWord (.single ⟨"b", ⟨24, 25⟩⟩)
          (some (.unary .bitNot (.number "1" ⟨29, 30⟩) ⟨28, 30⟩)) ⟨18, 31⟩] ⟨10, 33⟩)) ⟨0, 34⟩)).run
      ⟨"-- before\n", 1, [["g"], []], []⟩ =
    ((), ⟨"-- before\n    local f = function()\n        local b = ~1\n    end\n", 1,
      [["f", "g"], []],
      [⟨.error, 100001, "Bitwise operations are not supported for target Lua 5.1.",
        some ⟨"input.ts", ⟨1, 29⟩⟩⟩]⟩) := rfl

end LuaSnippet.Lowering
