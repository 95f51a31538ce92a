import LuaSnippet.Proofs.Script.Soundness
import LuaSnippet.Proofs.Lowering.Printer
import LuaSnippet.Proofs.Lowering.Printable
import LuaSnippet.Proofs.Lowering.Lists
import LuaSnippet.Proofs.Program.Reported

/-!
# What a printer prints

The printer and the lowering to trees come to the same: an expression is handed back as the text of
its lowered form, a statement writes the lines of its own, and both report what `exprReports` and
`stmtReports` list. `Gives` and `Puts` say what an action does at a depth and within some scopes,
whatever has been written and reported before, and both can be put together along a `do` block. So
printing a file leaves a printer with the text and the reports of its emission (`run_printStmts`).

The trees have to be well-formed at one place. A sign is grouped away from another one by a look at
the text of the operand, and the tree tells what the text starts with only if its names are names.
-/

namespace LuaSnippet.Lua

open Lowering (startsMinus)

variable {newLine : String} {depth : Nat}

theorem exprsText_eq (es : List Expr) :
    exprsText newLine depth es = Text.join ", " (es.map (exprText newLine depth)) := by
  induction es with
  | nil => rfl
  | cons e rest ih =>
    cases rest with
    | nil => rfl
    | cons e' rest =>
      rw [exprsText, ih]
      rfl

theorem fieldsText_eq (fields : List Field) :
    fieldsText newLine depth fields = Text.join ", " (fields.map (fieldText newLine depth)) := by
  induction fields with
  | nil => rfl
  | cons f rest ih =>
    cases rest with
    | nil => rfl
    | cons f' rest =>
      rw [fieldsText, ih]
      rfl

theorem stmtsText_append (xs ys : List Stmt) : stmtsText newLine depth (xs ++ ys) =
    stmtsText newLine depth xs ++ stmtsText newLine depth ys := by
  induction xs with
  | nil => exact (String.empty_append).symm
  | cons s rest ih => rw [List.cons_append, stmtsText, stmtsText, ih, String.append_assoc]

theorem head?_append_of_eq {xs ys : List Char} (h : xs.head? = some '-') :
    (xs ++ ys).head? = some '-' := by
  rw [List.head?_append, h, Option.some_or]

theorem Expr.head?_exprText_of_startsMinus : ∀ e : Expr, startsMinus e = true →
    (exprText newLine depth e).toList.head? = some '-'
  | .number text, he => by simpa [startsMinus, exprText] using he
  | .unary .neg operand, _ => by simp [exprText, UnOp.sign]
  | .binary op lhs rhs, he => by
    simp only [exprText, String.toList_append, List.append_assoc]
    exact head?_append_of_eq (head?_exprText_of_startsMinus lhs he)
  | .call callee args, he => by
    simp only [exprText, String.toList_append, List.append_assoc]
    exact head?_append_of_eq (head?_exprText_of_startsMinus callee he)
  | .member owner key, he => by
    rw [exprText]
    split
    all_goals
      simp only [String.toList_append, List.append_assoc]
      exact head?_append_of_eq (head?_exprText_of_startsMinus owner he)

theorem Expr.head?_exprText {e : Expr} (he : e.Printable) :
    decide ((exprText newLine depth e).toList.head? = some '-') = startsMinus e := by
  rw [Bool.eq_iff_iff, decide_eq_true_eq]
  exact ⟨fun h => (e.starts_exprText he _ h).2 rfl, e.head?_exprText_of_startsMinus⟩

end LuaSnippet.Lua

namespace LuaSnippet.Lowering

open Script (UnaryOp BinaryOp Expr Arg Field Stmt Param Binding declaredNames)
open Lua (exprText fieldText stmtsText elseText)
open Printing (declare deeper within aside)

theorem snd_lowerStmt (st : Setting) (ss : Scopes) (s : Stmt) :
    (lowerStmt st ss s).2 = ss.declareAll (declaredNames s) := by
  cases s with
  | bind kind binding init span => cases init <;> rfl
  | result value span => cases value <;> rfl
  | _ => rfl

/-! ### Texts and reports of an action -/

variable {α β : Type} {job : Job} {depth : Nat} {ss : Scopes} {rs rs' : List Report}
  {names names' : List String}

/-- Whether an action at a depth and within some scopes gives a value and reports something, and
leaves the rest of a printer as it is. -/
def Gives (job : Job) (depth : Nat) (ss : Scopes) (m : Printing α) (a : α) (rs : List Report) :
    Prop :=
  ∀ out ds, m.run ⟨out, depth, ss, ds⟩ = (a, ⟨out, depth, ss, ds ++ job.diagnostics rs⟩)

/-- Whether an action at a depth and within some scopes writes a text, declares names and reports
something. -/
def Puts (job : Job) (depth : Nat) (ss : Scopes) (m : Printing Unit) (text : String)
    (names : List String) (rs : List Report) : Prop :=
  ∀ out ds, m.run ⟨out, depth, ss, ds⟩ =
    ((), ⟨out ++ text, depth, ss.declareAll names, ds ++ job.diagnostics rs⟩)

theorem run_bind (m : Printing α) (f : α → Printing β) (p : Printer) :
    (m >>= f).run p = (f (m.run p).1).run (m.run p).2 := rfl

theorem run_within (own : List String) (m : Printing α) (p : Printer) :
    (within own m).run p =
      let r := m.run { p with scopes := own :: p.scopes }
      (r.1, { r.2 with scopes := r.2.scopes.tail }) := rfl

theorem run_deeper (m : Printing α) (p : Printer) :
    (deeper m).run p =
      let r := m.run { p with depth := p.depth + 1 }
      (r.1, { r.2 with depth := r.2.depth - 1 }) := rfl

theorem run_aside (m : Printing Unit) (p : Printer) :
    (aside m).run p =
      let q := (m.run { p with out := "" }).2
      (q.out, { q with out := p.out }) := rfl

theorem Job.diagnostics_append (job : Job) (rs rs' : List Report) :
    job.diagnostics (rs ++ rs') = job.diagnostics rs ++ job.diagnostics rs' :=
  List.map_append

namespace Gives

variable {m : Printing α} {f : α → Printing β} {a : α} {b : β}

theorem pure (a : α) : Gives job depth ss (pure a) a [] := fun out ds => by
  rw [Job.diagnostics, List.map_nil, List.append_nil]
  rfl

theorem bind (hm : Gives job depth ss m a rs) (hf : Gives job depth ss (f a) b rs') :
    Gives job depth ss (m >>= f) b (rs ++ rs') := fun out ds => by
  rw [run_bind, hm, hf, job.diagnostics_append, List.append_assoc]

theorem of_eq {a' : α} (hm : Gives job depth ss m a rs) (ha : a = a') (hrs : rs = rs') :
    Gives job depth ss m a' rs' :=
  ha ▸ hrs ▸ hm

theorem map (hm : Gives job depth ss m a rs) (g : α → β) :
    Gives job depth ss (m >>= fun x => Pure.pure (g x)) (g a) rs :=
  List.append_nil rs ▸ hm.bind (pure _)

theorem look {f : Printer → Printing β}
    (hf : ∀ out ds, Gives job depth ss (f ⟨out, depth, ss, ds⟩) b rs) :
    Gives job depth ss (get >>= f) b rs := fun out ds => hf out ds out ds

theorem puts {f : α → Printing Unit} {text : String} (hm : Gives job depth ss m a rs)
    (hf : Puts job depth ss (f a) text names rs') :
    Puts job depth ss (m >>= f) text names (rs ++ rs') := fun out ds => by
  rw [run_bind, hm, hf, job.diagnostics_append, List.append_assoc]

theorem within {own : List String} (hm : Gives job depth (own :: ss) m a rs) :
    Gives job depth ss (within own m) a rs := fun out ds => by
  rw [run_within, hm]
  rfl

end Gives

namespace Puts

variable {m : Printing Unit} {f : Unit → Printing Unit} {text text' : String}

theorem of_eq (hm : Puts job depth ss m text names rs) (htext : text = text')
    (hnames : names = names') (hrs : rs = rs') : Puts job depth ss m text' names' rs' :=
  htext ▸ hnames ▸ hrs ▸ hm

theorem bind (hm : Puts job depth ss m text names rs)
    (hf : ∀ u, Puts job depth (ss.declareAll names) (f u) text' names' rs') :
    Puts job depth ss (m >>= f) (text ++ text') (names ++ names') (rs ++ rs') := fun out ds => by
  rw [run_bind, hm, hf, job.diagnostics_append, List.append_assoc, String.append_assoc,
    declareAll_append]

theorem look {f : Printer → Printing Unit}
    (hf : ∀ out ds, Puts job depth ss (f ⟨out, depth, ss, ds⟩) text names rs) :
    Puts job depth ss (get >>= f) text names rs := fun out ds => hf out ds out ds

theorem next (hm : Puts job depth ss m text [] rs)
    (hf : ∀ u, Puts job depth ss (f u) text' names rs') :
    Puts job depth ss (m >>= f) (text ++ text') names (rs ++ rs') :=
  hm.bind hf

theorem within {own : List String} (hm : Puts job depth (own :: ss) m text names rs) :
    Puts job depth ss (within own m) text [] rs := fun out ds => by
  rw [run_within, hm]
  simp only [tail_declareAll]
  rfl

theorem deeper (hm : Puts job (depth + 1) ss m text names rs) :
    Puts job depth ss (deeper m) text names rs := fun out ds => by
  rw [run_deeper, hm]
  rfl

theorem aside (hm : Puts job depth ss m text [] rs) : Gives job depth ss (aside m) text rs :=
  fun out ds => by
    rw [run_aside, hm, String.empty_append]
    rfl

end Puts

/-! ### What a job does -/

variable {text : String} {x : Lua.Expr} {act : Printing String} {body : Printing Unit}

theorem puts_nothing : Puts job depth ss (pure ()) "" [] [] := fun out ds => by
  rw [String.append_empty, Job.diagnostics, List.map_nil, List.append_nil]
  rfl

theorem puts_declare (names : List String) : Puts job depth ss (declare names) "" names [] :=
  fun out ds => by
    rw [String.append_empty, Job.diagnostics, List.map_nil, List.append_nil]
    rfl

theorem puts_line (text : String) :
    Puts job depth ss (job.line text) (Lua.indent depth ++ text ++ job.newLine) [] [] :=
  fun out ds => by
    rw [Job.diagnostics, List.map_nil, List.append_nil]
    rfl

theorem Gives.line {m : Printing α} {a : α} {g : α → String} (hm : Gives job depth ss m a rs) :
    Puts job depth ss (m >>= fun x => job.line (g x)) (Lua.indent depth ++ g a ++ job.newLine) []
      rs :=
  List.append_nil rs ▸ hm.puts (puts_line _)

theorem gives_report (lack : Option Lack) (offset : Nat) :
    Gives job depth ss (job.report lack offset) () (reportOf lack offset) := fun _ _ => rfl

theorem puts_pack (params : List Param) : Puts job depth ss (job.pack params)
    (stmtsText job.newLine depth (packRest params)) [] [] := by
  unfold Job.pack packRest
  cases restName? params with
  | none => exact puts_nothing
  | some name =>
    refine (puts_line _).of_eq ?_ rfl rfl
    simp [← String.toList_inj, stmtsText, Lua.stmtText, Lua.packText, Lua.namesText, Text.join,
      exprText, Lua.fieldsText, fieldText]

theorem Puts.nested {params : List Param}
    (hbody : Puts job (depth + 1) (paramNames params :: ss) body text names rs) :
    Puts job depth ss (job.nested params body)
      (stmtsText job.newLine (depth + 1) (packRest params) ++ text) [] rs :=
  ((puts_pack params).next fun _ => hbody).within.deeper

theorem Puts.branch (hbody : Puts job (depth + 1) ([] :: ss) body text names rs) :
    Puts job depth ss (job.nested [] body) text [] rs :=
  (Puts.nested hbody).of_eq String.empty_append rfl rfl

theorem Puts.block (hbody : Puts job (depth + 1) ([] :: ss) body text names rs) :
    Puts job depth ss (job.block body)
      (Lua.indent depth ++ "do" ++ job.newLine ++ text ++ Lua.indent depth ++ "end" ++ job.newLine)
      [] rs := by
  refine ((puts_line _).next fun _ => hbody.branch.next fun _ => puts_line _).of_eq ?_ rfl
    (List.append_nil rs)
  simp only [String.append_assoc]

theorem exprText_groupIf (newLine : String) (group : Bool) (x : Lua.Expr) :
    exprText newLine depth (groupIf group x) = encloseIf group (exprText newLine depth x) := by
  cases group <;> rfl

theorem Gives.single (hact : Gives job depth ss act (exprText job.newLine depth x) rs) (e : Expr) :
    Gives job depth ss (job.single e act)
      (exprText job.newLine depth (collectIf (isMulti job.setting ss e) x)) rs := by
  refine List.append_nil rs ▸ hact.bind (.look fun out ds => ?_)
  dsimp only
  cases isMulti job.setting ss e <;> exact .pure _

theorem Gives.spread (hact : Gives job depth ss act (exprText job.newLine depth x) rs) (e : Expr) :
    Gives job depth ss (job.spread e act)
      (exprText job.newLine depth (spreadUnless job.setting.dialect (isMulti job.setting ss e) x))
      rs := by
  refine .look fun _ _ => (hact.map _).of_eq ?_ rfl
  cases isMulti job.setting ss e <;> rfl

theorem puts_loopHead (job : Job) (depth : Nat) (ss : Scopes) (b : Binding) (iterable : Bool)
    (x : Lua.Expr) : ∃ head,
    Puts job depth ss (job.loopHead b iterable (exprText job.newLine depth x)) head [] [] ∧
      ∀ body, Lua.stmtText job.newLine depth (loop job.setting b iterable x body) =
        head ++ stmtsText job.newLine (depth + 1) body ++
          (Lua.indent depth ++ "end" ++ job.newLine) := by
  unfold Job.loopHead loop
  cases iterable with
  | true =>
    refine ⟨_, puts_line _, fun body => ?_⟩
    simp [← String.toList_inj, Lua.stmtText]
  | false =>
    cases b with
    | single name =>
      refine ⟨_, puts_line _, fun body => ?_⟩
      simp [← String.toList_inj, Lua.stmtText, loopHead, isPattern, bindingNames,
        Script.Binding.names, Lua.namesText, Text.join, exprText, Lua.exprsText, Lua.Builtin.text]
    | pattern names =>
      refine ⟨_, (puts_line _).next fun _ => (puts_line _).deeper, fun body => ?_⟩
      simp [← String.toList_inj, Lua.stmtText, loopHead, isPattern, stmtsText, Job.unpackText,
        unpack, Lua.namesText, Text.join, exprText, Lua.exprsText, Lua.Builtin.text]

/-! ### Expressions and statements -/

theorem exprReports_eq_nil {d : Dialect} {lib : Lua.BitOp → Lua.Builtin}
    (hlib : bitLibrary? d = some lib) (e : Expr) : exprReports d e = [] := by
  have hlack : ∀ x, phraseLack d x = none := by
    cases d with
    | lua51 | lua53 => cases hlib
    | lua52 | luaJit => exact fun x => rfl
  have hnone : stmtsReports d [.expr e] = [] := reports_eq_nil fun o _ => hlack o.phrase
  simpa [stmtsReports, stmtReports] using hnone

theorem exprReports_unary {op : UnaryOp} (hop : op ≠ .bitNot) (d : Dialect) (operand : Expr)
    (span : Script.Span) : exprReports d (.unary op operand span) = exprReports d operand := by
  have hlack : unaryLack d op = none := by cases d <;> simp [unaryLack, hop]
  rw [exprReports, hlack, reportOf, List.append_nil]

theorem exprText_lowerBinary (newLine : String) (d : Dialect) (op : BinaryOp) (lhs rhs : Expr)
    (l r : Lua.Expr) : exprText newLine depth (lowerBinary d op lhs rhs l r) =
      binaryText d op lhs rhs (exprText newLine depth l) (exprText newLine depth r) := by
  rw [lowerBinary, binaryText]
  cases bitCall? d op with
  | some f => simp [exprText, Lua.exprsText, String.append_assoc]
  | none => simp only [exprText, exprText_groupIf]

theorem exprText_lambda (newLine : String) (params : List Param) (x : Lua.Expr) :
    exprText newLine depth (.lambda (params.map lowerParam) (restName? params) x) =
      arrowText params (exprText newLine depth x) := by
  rw [arrowText]
  cases restName? params <;> simp [← String.toList_inj, exprText, functionHead]

mutual

/-- An expression is printed as the text of its lowered form. -/
theorem gives_printExpr (job : Job) (depth : Nat) (ss : Scopes) : ∀ e : Expr, e.WellFormed →
    Gives job depth ss (printExpr job e)
      (exprText job.newLine depth (lowerExpr job.setting ss e)) (exprReports job.setting.dialect e)
  | .number _ _, _ | .string _ _, _ | .absent _, _ | .ident _, _ => .pure _
  | .bool value _, _ => by cases value <;> exact .pure _
  | .array elements _, he => by
    have helements := gives_printArgs job depth ss elements fun a ha =>
      he.of_mem_parts (List.mem_map_of_mem ha)
    refine (helements.map _).of_eq ?_ rfl
    rw [lowerExpr, exprText, lowerItems_eq, Lua.fieldsText_eq, List.map_map]
    rfl
  | .object fields _, he => by
    have hfields := gives_printFields job depth ss fields fun f hf =>
      he.of_mem_parts (List.mem_map_of_mem hf)
    refine (hfields.map _).of_eq ?_ rfl
    rw [lowerExpr, exprText, Lua.fieldsText_eq]
  | .call callee args _, he => by
    have hcallee := gives_printExpr job depth ss callee (he.of_mem_parts (.head _))
    have hargs := gives_printArgs job depth ss args fun a ha =>
      he.of_mem_parts (List.mem_cons_of_mem _ (List.mem_map_of_mem ha))
    refine (hcallee.bind (hargs.map _)).of_eq ?_ rfl
    rw [lowerExpr, exprText, exprText_groupIf, Lua.exprsText_eq]
  | .member owner property, he => by
    have howner := gives_printExpr job depth ss owner (he.of_mem_parts (.head _))
    refine (howner.map _).of_eq ?_ rfl
    rw [lowerExpr, exprText, exprText_groupIf]
    split <;> simp [String.append_assoc]
  | .nonNull inner, he => gives_printExpr job depth ss inner (he.of_mem_parts (.head _))
  | .paren inner _, he =>
    (gives_printExpr job depth ss inner (he.of_mem_parts (.head _))).map _
  | .unary op operand span, he => by
    have hwell : operand.WellFormed := he.of_mem_parts (.head _)
    have hoperand := gives_printExpr job depth ss operand hwell
    cases op with
    | not =>
      refine (hoperand.map _).of_eq ?_ (exprReports_unary (by decide) _ _ _).symm
      rw [lowerExpr, lowerUnary, exprText, exprText_groupIf]
      rfl
    | neg =>
      refine (hoperand.map _).of_eq ?_ (exprReports_unary (by decide) _ _ _).symm
      -- The printer looks at the text of the operand, the lowering at its tree.
      rw [lowerExpr, lowerUnary, negate, exprText, exprText_groupIf, ← exprText_groupIf,
        Lua.Expr.head?_exprText (printable_groupIf (printable_lowerExpr _ _ _ hwell))]
      rfl
    | bitNot =>
      cases hlib : bitLibrary? job.setting.dialect with
      | none =>
        have hprint : printExpr job (.unary .bitNot operand span) = (do
            let bare ← printExpr job operand
            job.report (unaryLack job.setting.dialect .bitNot) span.start
            return "~" ++
              encloseIf (needsGroup job.setting.dialect operand Lua.unaryLevel false) bare) := by
          simp only [printExpr, hlib]
        refine hprint ▸ (hoperand.bind ((gives_report _ _).map _)).of_eq ?_ (by simp [exprReports])
        rw [lowerExpr, lowerUnary, hlib, exprText, exprText_groupIf]
        rfl
      | some lib =>
        have hprint : printExpr job (.unary .bitNot operand span) = (do
            let _ ← printExpr job operand
            let again ← printExpr job operand
            return (lib .bnot).text ++ "(" ++ again ++ ")") := by
          simp only [printExpr, hlib]
        refine hprint ▸ (hoperand.bind (hoperand.map _)).of_eq ?_ ?_
        · rw [lowerExpr, lowerUnary, hlib]
          rfl
        · -- The operand is printed twice, but nothing is reported for it.
          rw [exprReports_eq_nil hlib, exprReports_eq_nil hlib]
          rfl
  | .binary op lhs rhs, he => by
    obtain ⟨hlhs, hrhs⟩ := Script.wellFormed_binary.mp he
    have hleft := gives_printExpr job depth ss lhs hlhs
    have hright := gives_printExpr job depth ss rhs hrhs
    refine ((gives_report _ _).bind (hleft.bind (hright.map _))).of_eq ?_ (by simp [exprReports])
    rw [lowerExpr, exprText_lowerBinary]
  | .arrow params value _, he => by
    have hvalue := gives_printExpr job depth (paramNames params :: ss) value
      (he.of_mem_parts (.head _))
    refine (hvalue.within.map _).of_eq ?_ rfl
    rw [lowerExpr, exprText_lambda]
  | .closure params body _, he => by
    have hbody := puts_printStmts job (depth + 1) (paramNames params :: ss) body fun s hs =>
      he.of_mem_parts (List.mem_map_of_mem hs)
    have hclosed (lines : String) : Gives job depth ss
        (get >>= fun p => Pure.pure
          (functionHead params ++ job.newLine ++ lines ++ Lua.indent p.depth ++ "end"))
        (functionHead params ++ job.newLine ++ lines ++ Lua.indent depth ++ "end") [] :=
      .look fun _ _ => .pure _
    refine (hbody.nested.aside.bind (hclosed _)).of_eq ?_ (List.append_nil _)
    rw [lowerExpr, exprText, Lua.stmtsText_append]
    rfl

theorem gives_printArg (job : Job) (depth : Nat) (ss : Scopes) : ∀ a : Arg, a.value.WellFormed →
    Gives job depth ss (printArg job a)
      (exprText job.newLine depth (lowerArg job.setting ss a)) (argReports job.setting.dialect a)
  | .plain value, ha => (gives_printExpr job depth ss value ha).single value
  | .spread value, ha => (gives_printExpr job depth ss value ha).spread value

theorem gives_printArgs (job : Job) (depth : Nat) (ss : Scopes) : ∀ args : List Arg,
    (∀ a ∈ args, a.value.WellFormed) → Gives job depth ss (printArgs job args)
      ((lowerArgs job.setting ss args).map (exprText job.newLine depth))
      (argsReports job.setting.dialect args)
  | [], _ => .pure _
  | a :: rest, h =>
    (gives_printArg job depth ss a (h a (.head _))).bind
      ((gives_printArgs job depth ss rest fun b hb => h b (.tail _ hb)).map _)

theorem gives_printField (job : Job) (depth : Nat) (ss : Scopes) : ∀ f : Field,
    f.value.WellFormed → Gives job depth ss (printField job f)
      (fieldText job.newLine depth (lowerField job.setting ss f))
      (fieldReports job.setting.dialect f)
  | .mk key value, hf => by
    refine (((gives_printExpr job depth ss value hf).single value).map _).of_eq ?_ rfl
    rw [lowerField, fieldText]

theorem gives_printFields (job : Job) (depth : Nat) (ss : Scopes) : ∀ fields : List Field,
    (∀ f ∈ fields, f.value.WellFormed) → Gives job depth ss (printFields job fields)
      ((lowerFields job.setting ss fields).map (fieldText job.newLine depth))
      (fieldsReports job.setting.dialect fields)
  | [], _ => .pure _
  | f :: rest, h =>
    (gives_printField job depth ss f (h f (.head _))).bind
      ((gives_printFields job depth ss rest fun g hg => h g (.tail _ hg)).map _)

/-- A statement is printed as the lines of its lowered form. -/
theorem puts_printInner (job : Job) (depth : Nat) (ss : Scopes) : ∀ s : Stmt, s.WellFormed →
    Puts job depth ss (printInner job s)
      (stmtsText job.newLine depth (lowerInner job.setting ss s).1) (innerNames s)
      (stmtReports job.setting.dialect s)
  | .bind _ binding none _, _ => by
    refine ((puts_declare _).bind fun _ => puts_line _).of_eq ?_ (List.append_nil _) rfl
    simp [lowerInner, stmtsText, Lua.stmtText, String.append_assoc]
  | .bind _ binding (some init) _, hs => by
    have hinit := gives_printExpr job depth ss init (hs.of_mem_parts (.head _))
    have hvalue : Gives job depth ss
        (if isPattern binding then job.spread init (printExpr job init)
          else job.single init (printExpr job init))
        (exprText job.newLine depth (if isPattern binding
          then spreadUnless job.setting.dialect (isMulti job.setting ss init)
            (lowerExpr job.setting ss init)
          else collectIf (isMulti job.setting ss init) (lowerExpr job.setting ss init)))
        (exprReports job.setting.dialect init) := by
      split
      · exact hinit.spread init
      · exact hinit.single init
    refine (hvalue.puts ((puts_declare _).bind fun _ => puts_line _)).of_eq ?_
      (List.append_nil _) ?_
    · simp [lowerInner, declareWith, stmtsText, Lua.stmtText, String.append_assoc]
    · simp [stmtReports, optionReports]
  | .function name params body _, hs => by
    have hbody := puts_printStmts job (depth + 1) (paramNames params :: ss.declare name.name) body
      fun s h => hs.of_mem_parts (List.mem_map_of_mem h)
    refine ((puts_declare [name.name]).bind fun _ => (puts_line _).next fun _ =>
      hbody.nested.next fun _ => puts_line _).of_eq ?_ rfl ?_
    · simp [lowerInner, stmtsText, Lua.stmtText, Lua.stmtsText_append, String.append_assoc]
    · simp [stmtReports]
  | .assign target value _, hs => by
    have htarget := gives_printExpr job depth ss target (hs.of_mem_parts (.head _))
    have hvalue := gives_printExpr job depth ss value (hs.of_mem_parts (.tail _ (.head _)))
    refine (htarget.puts (hvalue.single value).line).of_eq ?_ rfl rfl
    simp [lowerInner, stmtsText, Lua.stmtText, String.append_assoc]
  | .forOf binding iterable body _, hs => by
    have hiterable := gives_printExpr job depth ss iterable (hs.of_mem_parts (.head _))
    obtain ⟨head, hhead, hloop⟩ := puts_loopHead job depth
      (Scopes.declareAll ([] :: ss) (bindingNames binding)) binding
      (isIterable job.setting ss iterable) (lowerExpr job.setting ss iterable)
    have hbody := puts_printInner job (depth + 1)
      ([] :: Scopes.declareAll ([] :: ss) (bindingNames binding)) body
      (hs.of_mem_parts (.tail _ (.head _)))
    have hscope := ((puts_declare (bindingNames binding)).bind fun _ =>
      hhead.next fun _ => hbody.branch).within
    refine (hiterable.puts (.look fun _ _ => hscope.next fun _ => puts_line _)).of_eq ?_ rfl ?_
    · simp [lowerInner, stmtsText, hloop, String.append_assoc]
    · simp [stmtReports]
  | .cond test whenTrue whenFalse _, hs => by
    have htest := gives_printExpr job depth ss test (hs.of_mem_parts (.head _))
    have htrue := puts_printInner job (depth + 1) ([] :: ss) whenTrue
      (hs.of_mem_parts (.tail _ (.head _)))
    have hfalse := puts_printElse job depth ss whenFalse fun s h =>
      hs.of_mem_parts (.tail _ (.tail _ (List.mem_map_of_mem (Option.mem_toList.mpr h))))
    refine (htest.puts ((puts_line _).next fun _ => htrue.branch.next fun _ => hfalse)).of_eq ?_
      rfl ?_
    · simp [lowerInner, stmtsText, Lua.stmtText, String.append_assoc]
    · simp [stmtReports]
  | .result none _, _ => by
    refine (puts_line _).of_eq ?_ rfl rfl
    simp [lowerInner, stmtsText, Lua.stmtText]
  | .result (some value) _, hs => by
    have hvalue := gives_printExpr job depth ss value (hs.of_mem_parts (.head _))
    refine hvalue.line.of_eq ?_ rfl rfl
    simp [lowerInner, stmtsText, Lua.stmtText, String.append_assoc]
  | .block body _, hs => puts_printStmts job depth ss body fun s h =>
      hs.of_mem_parts (List.mem_map_of_mem h)
  | .expr e, hs => by
    have he := gives_printExpr job depth ss e (hs.of_mem_parts (.head _))
    refine he.line.of_eq ?_ rfl rfl
    rw [lowerInner]
    cases isCall e <;> simp [stmtsText, Lua.stmtText, String.append_assoc]
  | .declare _ _, _ | .typeOnly _, _ | .empty _, _ => puts_nothing

theorem puts_printElse (job : Job) (depth : Nat) (ss : Scopes) : ∀ rest : Option Stmt,
    (∀ s ∈ rest, s.WellFormed) → Puts job depth ss (printElse job rest)
      (elseText job.newLine depth (lowerElse job.setting ss rest)) []
      (elseReports job.setting.dialect rest)
  | none, _ => puts_line _
  | some (.cond test whenTrue whenFalse _), h => by
    have hs := h _ rfl
    have htest := gives_printExpr job depth ss test (hs.of_mem_parts (.head _))
    have htrue := puts_printInner job (depth + 1) ([] :: ss) whenTrue
      (hs.of_mem_parts (.tail _ (.head _)))
    have hfalse := puts_printElse job depth ss whenFalse fun s h =>
      hs.of_mem_parts (.tail _ (.tail _ (List.mem_map_of_mem (Option.mem_toList.mpr h))))
    refine (htest.puts ((puts_line _).next fun _ => htrue.branch.next fun _ => hfalse)).of_eq ?_
      rfl ?_
    · simp [lowerElse, elseText, String.append_assoc]
    · simp [elseReports, stmtReports]
  | some (.bind _ _ _ _), h | some (.function _ _ _ _), h | some (.assign _ _ _), h
  | some (.forOf _ _ _ _), h | some (.result _ _), h | some (.block _ _), h | some (.expr _), h
  | some (.declare _ _), h | some (.typeOnly _), h | some (.empty _), h => by
    have hs := puts_printInner job (depth + 1) ([] :: ss) _ (h _ rfl)
    refine ((puts_line _).next fun _ => hs.branch.next fun _ => puts_line _).of_eq ?_ rfl
      (List.append_nil _)
    simp only [lowerElse, elseText, String.append_assoc]

theorem puts_printStmts (job : Job) (depth : Nat) (ss : Scopes) : ∀ body : List Stmt,
    (∀ s ∈ body, s.WellFormed) → Puts job depth ss (printStmts job body)
      (stmtsText job.newLine depth (lowerStmts job.setting ss body)) (body.flatMap declaredNames)
      (stmtsReports job.setting.dialect body)
  | [], _ => puts_nothing
  | s :: rest, h => by
    have hs : Puts job depth ss (printStmt job s)
        (stmtsText job.newLine depth (lowerStmt job.setting ss s).1) (declaredNames s)
        (stmtReports job.setting.dialect s) := by
      have hinner := fun depth ss => puts_printInner job depth ss s (h s (.head _))
      cases s with
      | block body span => exact (hinner _ _).block.of_eq (String.append_empty).symm rfl rfl
      | _ => exact hinner depth ss
    have hrest := puts_printStmts job depth (ss.declareAll (declaredNames s)) rest
      fun t ht => h t (.tail _ ht)
    -- What the statement declares is in scope for those behind it.
    rw [printStmts_cons, lowerStmts_cons, Lua.stmtsText_append, snd_lowerStmt]
    exact hs.bind fun _ => hrest

end

theorem wellFormed_statements (name text : String) (edition : Script.Edition) :
    ∀ s ∈ (Script.File.read name text edition).statements, s.WellFormed := by
  unfold Script.File.read
  split
  · rename_i body hread
    exact Script.wellFormed_of_read hread
  · exact fun s hs => absurd hs List.not_mem_nil

/-- **A printer prints what a program emits for a file, and reports what is reported for it.** -/
theorem run_printStmts (program : Program) (name text : String) (edition : Script.Edition) :
    let file := Script.File.read name text edition
    (printStmts (program.job file) file.statements).run .start =
      ((), ⟨program.luaText file, 0,
        Scopes.declareAll [[]] (file.statements.flatMap declaredNames), program.lacking file⟩) := by
  intro file
  have hputs := puts_printStmts (program.job file) 0 [[]] file.statements
    (wellFormed_statements name text edition) "" []
  rwa [String.empty_append] at hputs

end LuaSnippet.Lowering
