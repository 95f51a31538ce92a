import LuaSnippet.Proofs.Lowering.Names
import LuaSnippet.Proofs.Lowering.Printable
import LuaSnippet.Proofs.Lua.Needs
import LuaSnippet.Inspect.Walk
import LuaSnippet.Script.File

/-!
# Inserted names

Lowering inserts builtins for spread lists, patterns, loops and operations on bits, and goes along
with the names of the script as they are. So a script can take the name of a library function away
from the builtins behind the declaration. The builtins are inserted one by one, and an inserted one is
captured exactly where the script has declared its name on the way (`insertions_lower`); the element of
a loop never is. Inspection does not ask for this (`declared_unpack_captures`).
-/

namespace LuaSnippet.Lowering

open Script (Expr Arg Field Stmt Param Binding Way)
open Lua (Builtin Need nameOf exprNeeds exprsNeeds fieldNeeds fieldsNeeds optionNeeds stmtNeeds
  stmtsNeeds elseNeeds)

/-! ### Insertions -/

/-- A builtin that is inserted, with the way to the place where it is. -/
structure Insertion where
  builtin : Builtin
  way : Way

/-- Whether the script has declared the name of an inserted library function on the way to it. -/
def Insertion.isDeclared (i : Insertion) : Prop :=
  i.builtin ≠ .loopValue ∧ i.builtin.root ∈ i.way.declared

/-- What is inserted for all values of an expression: the function that gives the values of a table,
unless the expression gives several values itself. -/
def spreadInsertions (st : Setting) (w : Way) (e : Expr) : List Insertion :=
  if isMulti st (scopesAt w) e then [] else [⟨unpackBuiltin st.dialect, w⟩]

def unaryInsertions (st : Setting) (w : Way) : Script.UnaryOp → List Insertion
  | .bitNot => (bitLibrary? st.dialect).toList.map fun lib => ⟨lib .bnot, w⟩
  | _ => []

def binaryInsertions (st : Setting) (w : Way) (op : Script.BinaryOp) : List Insertion :=
  (bitCall? st.dialect op).toList.map fun f => ⟨f, w⟩

/-- What is inserted at the start of a loop over a table. -/
def loopInsertions (st : Setting) (w : Way) (b : Binding) : List Insertion :=
  if isPattern b then [⟨unpackBuiltin st.dialect, w⟩, ⟨.loopValue, w⟩] else []

mutual

def exprInsertions (st : Setting) (w : Way) : Expr → List Insertion
  | .number _ _ | .string _ _ | .bool _ _ | .absent _ | .ident _ => []
  | .array elements _ => argsInsertions st w elements
  | .object fields _ => fieldsInsertions st w fields
  | .call callee args _ => exprInsertions st w callee ++ argsInsertions st w args
  | .member owner _ => exprInsertions st w owner
  | .nonNull inner => exprInsertions st w inner
  | .paren inner _ => exprInsertions st w inner
  | .unary op operand _ => unaryInsertions st w op ++ exprInsertions st w operand
  | .binary op lhs rhs =>
    binaryInsertions st w op ++ (exprInsertions st w lhs ++ exprInsertions st w rhs)
  | .arrow params value _ => exprInsertions st (w.arrow params) value
  | .closure params body _ => stmtsInsertions st (w.closure params body) body

def argInsertions (st : Setting) (w : Way) : Arg → List Insertion
  | .plain value => exprInsertions st w value
  | .spread value => spreadInsertions st w value ++ exprInsertions st w value

def argsInsertions (st : Setting) (w : Way) : List Arg → List Insertion
  | [] => []
  | a :: rest => argInsertions st w a ++ argsInsertions st w rest

def fieldInsertions (st : Setting) (w : Way) : Field → List Insertion
  | .mk _ value => exprInsertions st w value

def fieldsInsertions (st : Setting) (w : Way) : List Field → List Insertion
  | [] => []
  | f :: rest => fieldInsertions st w f ++ fieldsInsertions st w rest

/-- What is inserted into a statement that the way leads into, if it is a block. -/
def innerInsertions (st : Setting) (w : Way) : Stmt → List Insertion
  | .bind _ _ none _ => []
  | .bind _ binding (some init) _ =>
    (if isPattern binding then spreadInsertions st w init else []) ++ exprInsertions st w init
  | .function name params body _ => stmtsInsertions st (w.function name params body) body
  | .assign target value _ => exprInsertions st w target ++ exprInsertions st w value
  | .forOf binding iterable body _ =>
    (if isIterable st (scopesAt w) iterable then exprInsertions st w iterable
      else ⟨.ipairs, w⟩ :: exprInsertions st w iterable ++ loopInsertions st w binding) ++
      innerInsertions st (w.loop binding body) body
  | .cond test whenTrue whenFalse _ =>
    exprInsertions st w test ++ innerInsertions st (w.branch whenTrue) whenTrue ++
      elseInsertions st w whenFalse
  | .result none _ => []
  | .result (some value) _ => exprInsertions st w value
  | .block body _ => stmtsInsertions st w body
  | .expr e => exprInsertions st w e
  | .declare _ _ | .typeOnly _ | .empty _ => []

def elseInsertions (st : Setting) (w : Way) : Option Stmt → List Insertion
  | none => []
  | some s => innerInsertions st (w.otherwise s) s

def stmtsInsertions (st : Setting) (w : Way) : List Stmt → List Insertion
  | [] => []
  | s :: rest => innerInsertions st (w.toward s) s ++ stmtsInsertions st (w.past s) rest

end

/-- What is inserted into a script, from the first to the last. -/
def insertions (st : Setting) (body : List Stmt) : List Insertion :=
  stmtsInsertions st (.file body) body

/-! ### Library names among the locals -/

theorem root_plain {b : Builtin} (hb : b ≠ .loopValue) :
    '_' ∉ b.root.toList ∧ nameOf b.root = b.root := by
  cases b with
  | loopValue => exact absurd rfl hb
  | bit32 op | bit op => cases op <;> decide
  | _ => decide

theorem nameOf_eq_root {b : Builtin} (hb : b ≠ .loopValue) (x : String) :
    nameOf x = b.root ↔ x = b.root := by
  obtain ⟨hplain, hself⟩ := root_plain hb
  refine ⟨fun hx => ?_, fun hx => by rw [hx, hself]⟩
  unfold nameOf at hx
  split at hx
  · rw [← hx] at hplain
    exact absurd (by simp) hplain
  · rw [← hx, String.toList_ofList] at hplain
    have hsame := (flatMap_nameChars x.toList).resolve_left hplain
    rwa [hsame, String.ofList_toList] at hx

/-- Of the library names, just those of some names are among some locals. -/
def Mirrors (names locals : List String) : Prop :=
  ∀ b : Builtin, b ≠ .loopValue → (b.root ∈ locals ↔ b.root ∈ names)

variable {names locals : List String}

theorem Mirrors.append (hnames : Mirrors names locals) (first : List String) :
    Mirrors (first ++ names) (first.map nameOf ++ locals) := by
  intro b hb
  have hfirst : b.root ∈ first.map nameOf ↔ b.root ∈ first := by
    simp only [List.mem_map, nameOf_eq_root hb, exists_eq_right]
  rw [List.mem_append, List.mem_append, hfirst, hnames b hb]

theorem Mirrors.skip (hnames : Mirrors names locals) {own : List String}
    (hown : ∀ x ∈ own, '_' ∈ x.toList) : Mirrors names (own ++ locals) := by
  intro b hb
  have hroot : b.root ∉ own := fun hmem => (root_plain hb).1 (hown _ hmem)
  rw [List.mem_append, or_iff_right hroot, hnames b hb]

theorem Mirrors.params (hnames : Mirrors names locals) (params : List Param) :
    Mirrors (Script.givenNames params ++ names)
      ((restName? params).toList ++ (Lua.paramNames (params.map lowerParam) ++ locals)) := by
  rw [← List.append_assoc, map_nameOf_givenNames]
  exact hnames.append _

theorem Mirrors.past {w : Way} (hw : Mirrors w.declared locals) (st : Setting) (ss : Scopes)
    (s : Stmt) :
    Mirrors (w.past s).declared ((lowerStmt st ss s).1.foldl Lua.Stmt.behind locals) := by
  obtain ⟨own, hown, hbehind⟩ := behind_lowerStmt st ss s locals
  rw [hbehind]
  refine (hw.append (Script.declaredNames s)).skip fun x hx => ?_
  rw [hown x hx]
  decide

/-! ### Needs of the parts of a lowered script -/

theorem exprNeeds_groupIf (group : Bool) (e : Lua.Expr) :
    exprNeeds locals (groupIf group e) = exprNeeds locals e := by
  cases group <;> rfl

theorem exprNeeds_collectIf (multi : Bool) (e : Lua.Expr) :
    exprNeeds locals (collectIf multi e) = exprNeeds locals e := by
  cases multi
  · rfl
  · exact List.append_nil _

theorem exprNeeds_unpack (d : Dialect) (e : Lua.Expr) :
    exprNeeds locals (unpack d e) = ⟨unpackBuiltin d, locals⟩ :: exprNeeds locals e :=
  congrArg (List.cons _) (List.append_nil _)

theorem stmtsNeeds_packRest (params : List Param) (body : List Lua.Stmt) :
    stmtsNeeds locals (packRest params ++ body) =
      stmtsNeeds ((restName? params).toList ++ locals) body := by
  rw [packRest]
  cases restName? params <;> rfl

theorem stmtsNeeds_append (xs ys : List Lua.Stmt) :
    stmtsNeeds locals (xs ++ ys) =
      stmtsNeeds locals xs ++ stmtsNeeds (xs.foldl Lua.Stmt.behind locals) ys := by
  induction xs generalizing locals with
  | nil => rfl
  | cons s xs ih =>
    rw [List.cons_append, stmtsNeeds, ih, List.foldl_cons, stmtsNeeds, List.append_assoc]

/-! ### Builtins are inserted one by one -/

/-- An insertion and a builtin of a Lua tree belong together: the builtin is the inserted one, and it is
captured if the script has declared its name on the way. -/
def Stands (i : Insertion) (n : Need) : Prop :=
  n.builtin = i.builtin ∧ (n.isCaptured = true ↔ i.isDeclared)

variable {w : Way}

theorem stands_of_mirrors (hw : Mirrors w.declared locals) {b : Builtin} (hb : b ≠ .loopValue) :
    Stands ⟨b, w⟩ ⟨b, locals⟩ := by
  refine ⟨rfl, ?_⟩
  have hcaptured : Need.isCaptured ⟨b, locals⟩ = locals.contains b.root := by
    cases b with
    | loopValue => exact absurd rfl hb
    | _ => rfl
  rw [hcaptured, List.contains_iff_mem, hw b hb, Insertion.isDeclared]
  exact (and_iff_right hb).symm

theorem stands_loopValue (w : Way) (locals : List String) :
    Stands ⟨.loopValue, w⟩ ⟨.loopValue, "____" :: Builtin.loopValue.text :: locals⟩ := by
  refine ⟨rfl, ?_⟩
  simp [Need.isCaptured, Insertion.isDeclared]

theorem unpackBuiltin_ne (d : Dialect) : unpackBuiltin d ≠ .loopValue := by
  cases d <;> nofun

theorem bitLibrary_ne {d : Dialect} {lib : Lua.BitOp → Builtin} (hlib : bitLibrary? d = some lib)
    (op : Lua.BitOp) : lib op ≠ .loopValue := by
  cases d <;> cases hlib <;> nofun

theorem stands_spreadUnless (st : Setting) (hw : Mirrors w.declared locals) (e : Expr)
    {value : Lua.Expr} {is : List Insertion}
    (hvalue : List.Forall₂ Stands is (exprNeeds locals value)) :
    List.Forall₂ Stands (spreadInsertions st w e ++ is)
      (exprNeeds locals (spreadUnless st.dialect (isMulti st (scopesAt w) e) value)) := by
  rw [spreadInsertions, spreadUnless]
  split
  · exact hvalue
  · rw [exprNeeds_unpack]
    exact .cons (stands_of_mirrors hw (unpackBuiltin_ne _)) hvalue

theorem stands_lowerUnary (st : Setting) (hw : Mirrors w.declared locals) (op : Script.UnaryOp)
    (group : Bool) {operand : Lua.Expr} {is : List Insertion}
    (hoperand : List.Forall₂ Stands is (exprNeeds locals operand)) :
    List.Forall₂ Stands (unaryInsertions st w op ++ is)
      (exprNeeds locals (lowerUnary st.dialect op group operand)) := by
  have hgrouped : exprNeeds locals (groupIf group operand) = exprNeeds locals operand :=
    exprNeeds_groupIf group operand
  cases op with
  | not => exact hgrouped.symm ▸ hoperand
  | neg => exact ((exprNeeds_groupIf _ _).trans hgrouped).symm ▸ hoperand
  | bitNot =>
    rw [unaryInsertions, lowerUnary]
    rcases hlib : bitLibrary? st.dialect with _ | lib
    · exact hgrouped.symm ▸ hoperand
    · have hcall : exprNeeds locals (.call (.builtin (lib .bnot)) [operand]) =
          ⟨lib .bnot, locals⟩ :: exprNeeds locals operand :=
        congrArg (List.cons _) (List.append_nil _)
      exact hcall.symm ▸ .cons (stands_of_mirrors hw (bitLibrary_ne hlib _)) hoperand

theorem bitCall_ne {d : Dialect} {op : Script.BinaryOp} {f : Builtin}
    (hf : bitCall? d op = some f) : f ≠ .loopValue := by
  rw [bitCall?] at hf
  split at hf
  · obtain ⟨lib, hlib, rfl⟩ := Option.map_eq_some_iff.mp hf
    exact bitLibrary_ne hlib _
  · cases hf

theorem stands_lowerBinary (st : Setting) (hw : Mirrors w.declared locals)
    (op : Script.BinaryOp) (lhs rhs : Expr) {l r : Lua.Expr} {is : List Insertion}
    (hoperands : List.Forall₂ Stands is (exprNeeds locals l ++ exprNeeds locals r)) :
    List.Forall₂ Stands (binaryInsertions st w op ++ is)
      (exprNeeds locals (lowerBinary st.dialect op lhs rhs l r)) := by
  rw [binaryInsertions, lowerBinary]
  rcases hcall : bitCall? st.dialect op with _ | f
  · simp only [exprNeeds, exprNeeds_groupIf]
    exact hoperands
  · have hneeds : exprNeeds locals (.call (.builtin f) [l, r]) =
        ⟨f, locals⟩ :: (exprNeeds locals l ++ exprNeeds locals r) := by
      simp [exprNeeds, exprsNeeds]
    exact hneeds.symm ▸ .cons (stands_of_mirrors hw (bitCall_ne hcall)) hoperands

theorem stands_loop (st : Setting) (hw : Mirrors w.declared locals) (b : Binding) (iterable : Expr)
    {e : Lua.Expr} {body : List Lua.Stmt} {is js : List Insertion}
    (he : List.Forall₂ Stands is (exprNeeds locals e))
    (hbody : ∀ locals', Mirrors ((bindingNames b) ++ w.declared) locals' →
      List.Forall₂ Stands js (stmtsNeeds locals' body)) :
    List.Forall₂ Stands
      ((if isIterable st (scopesAt w) iterable then is
        else ⟨.ipairs, w⟩ :: is ++ loopInsertions st w b) ++ js)
      (stmtNeeds locals (loop st b (isIterable st (scopesAt w) iterable) e body)) := by
  have hnames := hw.append (bindingNames b)
  rw [loop]
  split
  · exact List.rel_append he (hbody _ hnames)
  · have hipairs : exprNeeds locals (.call (.builtin .ipairs) [e]) =
        ⟨.ipairs, locals⟩ :: exprNeeds locals e :=
      congrArg (List.cons _) (List.append_nil _)
    have hlibrary : Lua.Builtin.ipairs ≠ .loopValue := by decide
    have hiterator := List.Forall₂.cons (stands_of_mirrors hw hlibrary) he
    rw [List.append_assoc, stmtNeeds, hipairs]
    refine List.rel_append hiterator ?_
    cases b with
    | single name =>
      have hown : ∀ x ∈ ["____"], '_' ∈ x.toList := by decide
      exact hbody _ (hnames.skip hown)
    | pattern names =>
      have hown : ∀ x ∈ ["____", Builtin.loopValue.text], '_' ∈ x.toList := by decide
      have hinner := hw.skip hown
      exact .cons (stands_of_mirrors hinner (unpackBuiltin_ne _))
        (.cons (stands_loopValue w locals) (hbody _ (hinner.append _)))

mutual

theorem insertions_lowerExpr (st : Setting) : ∀ (e : Expr) (w : Way) (locals : List String),
    Mirrors w.declared locals → List.Forall₂ Stands (exprInsertions st w e)
      (exprNeeds locals (lowerExpr st (scopesAt w) e))
  | .number _ _, _, _, _ | .string _ _, _, _, _ | .bool _ _, _, _, _ | .absent _, _, _, _
  | .ident _, _, _, _ => .nil
  | .array elements _, w, locals, hw => insertions_lowerItems st elements w locals hw
  | .object fields _, w, locals, hw => insertions_lowerFields st fields w locals hw
  | .call callee args _, w, locals, hw => by
    rw [exprInsertions, lowerExpr, exprNeeds, exprNeeds_groupIf]
    exact List.rel_append (insertions_lowerExpr st callee w locals hw)
      (insertions_lowerArgs st args w locals hw)
  | .member owner _, w, locals, hw => by
    rw [exprInsertions, lowerExpr, exprNeeds, exprNeeds_groupIf]
    exact insertions_lowerExpr st owner w locals hw
  | .nonNull inner, w, locals, hw | .paren inner _, w, locals, hw =>
    insertions_lowerExpr st inner w locals hw
  | .unary op operand _, w, locals, hw =>
    stands_lowerUnary st hw op _ (insertions_lowerExpr st operand w locals hw)
  | .binary op lhs rhs, w, locals, hw =>
    stands_lowerBinary st hw op lhs rhs (List.rel_append (insertions_lowerExpr st lhs w locals hw)
      (insertions_lowerExpr st rhs w locals hw))
  | .arrow params value _, w, locals, hw => by
    rw [lowerExpr, exprNeeds, List.append_assoc]
    exact insertions_lowerExpr st value (w.arrow params) _ (hw.params params)
  | .closure params body _, w, locals, hw => by
    rw [lowerExpr, exprNeeds, stmtsNeeds_packRest]
    exact insertions_lowerStmts st body (w.closure params body) _ (hw.params params)

theorem insertions_lowerArg (st : Setting) : ∀ (a : Arg) (w : Way) (locals : List String),
    Mirrors w.declared locals → List.Forall₂ Stands (argInsertions st w a)
      (exprNeeds locals (lowerArg st (scopesAt w) a))
  | .plain value, w, locals, hw => by
    rw [lowerArg, exprNeeds_collectIf]
    exact insertions_lowerExpr st value w locals hw
  | .spread value, w, locals, hw =>
    stands_spreadUnless st hw value (insertions_lowerExpr st value w locals hw)

theorem insertions_lowerArgs (st : Setting) : ∀ (args : List Arg) (w : Way)
    (locals : List String), Mirrors w.declared locals →
      List.Forall₂ Stands (argsInsertions st w args)
        (exprsNeeds locals (lowerArgs st (scopesAt w) args))
  | [], _, _, _ => .nil
  | a :: rest, w, locals, hw =>
    List.rel_append (insertions_lowerArg st a w locals hw)
      (insertions_lowerArgs st rest w locals hw)

theorem insertions_lowerItems (st : Setting) : ∀ (args : List Arg) (w : Way)
    (locals : List String), Mirrors w.declared locals →
      List.Forall₂ Stands (argsInsertions st w args)
        (fieldsNeeds locals (lowerItems st (scopesAt w) args))
  | [], _, _, _ => .nil
  | a :: rest, w, locals, hw =>
    List.rel_append (insertions_lowerArg st a w locals hw)
      (insertions_lowerItems st rest w locals hw)

theorem insertions_lowerField (st : Setting) : ∀ (f : Field) (w : Way) (locals : List String),
    Mirrors w.declared locals → List.Forall₂ Stands (fieldInsertions st w f)
      (fieldNeeds locals (lowerField st (scopesAt w) f))
  | .mk _ value, w, locals, hw => by
    rw [lowerField, fieldNeeds, exprNeeds_collectIf]
    exact insertions_lowerExpr st value w locals hw

theorem insertions_lowerFields (st : Setting) : ∀ (fields : List Field) (w : Way)
    (locals : List String), Mirrors w.declared locals →
      List.Forall₂ Stands (fieldsInsertions st w fields)
        (fieldsNeeds locals (lowerFields st (scopesAt w) fields))
  | [], _, _, _ => .nil
  | f :: rest, w, locals, hw =>
    List.rel_append (insertions_lowerField st f w locals hw)
      (insertions_lowerFields st rest w locals hw)

theorem insertions_lowerInner (st : Setting) : ∀ (s : Stmt) (w : Way) (locals : List String),
    Mirrors w.declared locals → List.Forall₂ Stands (innerInsertions st w s)
      (stmtsNeeds locals (lowerInner st (scopesAt w) s).1)
  | .bind _ _ none _, _, _, _ => .nil
  | .bind _ binding (some init) _, w, locals, hw => by
    have hinit := insertions_lowerExpr st init w locals hw
    rw [innerInsertions, lowerInner, stmtsNeeds, stmtsNeeds, List.append_nil, declareWith,
      stmtNeeds, optionNeeds]
    cases isPattern binding with
    | true => exact stands_spreadUnless st hw init hinit
    | false =>
      rw [if_neg Bool.false_ne_true, if_neg Bool.false_ne_true, exprNeeds_collectIf]
      exact hinit
  | .function name params body _, w, locals, hw => by
    rw [lowerInner, stmtsNeeds, stmtNeeds, stmtsNeeds_packRest, stmtsNeeds, List.append_nil]
    exact insertions_lowerStmts st body (w.function name params body) _
      ((hw.append [name.name]).params params)
  | .assign target value _, w, locals, hw => by
    rw [lowerInner, stmtsNeeds, stmtNeeds, exprNeeds_collectIf, stmtsNeeds, List.append_nil]
    exact List.rel_append (insertions_lowerExpr st target w locals hw)
      (insertions_lowerExpr st value w locals hw)
  | .forOf binding iterable body _, w, locals, hw => by
    rw [lowerInner, stmtsNeeds, stmtsNeeds, List.append_nil]
    exact stands_loop st hw binding iterable (insertions_lowerExpr st iterable w locals hw)
      fun locals' hlocals' => insertions_lowerInner st body (w.loop binding body) locals' hlocals'
  | .cond test whenTrue whenFalse _, w, locals, hw => by
    rw [lowerInner, stmtsNeeds, stmtNeeds, stmtsNeeds, List.append_nil]
    exact List.rel_append (List.rel_append (insertions_lowerExpr st test w locals hw)
      (insertions_lowerInner st whenTrue (w.branch whenTrue) locals hw))
      (insertions_lowerElse st whenFalse w locals hw)
  | .result none _, _, _, _ => .nil
  | .result (some value) _, w, locals, hw => by
    rw [lowerInner, stmtsNeeds, stmtNeeds, stmtsNeeds, List.append_nil]
    exact insertions_lowerExpr st value w locals hw
  | .block body _, w, locals, hw => insertions_lowerStmts st body w locals hw
  | .expr e, w, locals, hw => by
    have he := insertions_lowerExpr st e w locals hw
    rw [← List.append_nil (exprNeeds _ _)] at he
    rw [lowerInner]
    cases isCall e <;> exact he
  | .declare _ _, _, _, _ | .typeOnly _, _, _, _ | .empty _, _, _, _ => .nil

theorem insertions_lowerElse (st : Setting) : ∀ (rest : Option Stmt) (w : Way)
    (locals : List String), Mirrors w.declared locals →
      List.Forall₂ Stands (elseInsertions st w rest)
        (elseNeeds locals (lowerElse st (scopesAt w) rest))
  | none, _, _, _ => .nil
  | some (.cond test whenTrue whenFalse span), w, locals, hw => by
    have hways : elseInsertions st w (some (.cond test whenTrue whenFalse span)) =
        exprInsertions st (w.otherwise (.cond test whenTrue whenFalse span)) test ++
          innerInsertions st ((w.otherwise (.cond test whenTrue whenFalse span)).branch whenTrue)
            whenTrue ++
          elseInsertions st (w.otherwise (.cond test whenTrue whenFalse span)) whenFalse := rfl
    rw [hways, lowerElse, elseNeeds]
    exact List.rel_append (List.rel_append (insertions_lowerExpr st test (w.otherwise _) locals hw)
      (insertions_lowerInner st whenTrue ((w.otherwise _).branch whenTrue) locals hw))
      (insertions_lowerElse st whenFalse (w.otherwise _) locals hw)
  | some (.bind _ _ _ _), w, locals, hw | some (.function _ _ _ _), w, locals, hw
  | some (.assign _ _ _), w, locals, hw | some (.forOf _ _ _ _), w, locals, hw
  | some (.result _ _), w, locals, hw | some (.block _ _), w, locals, hw
  | some (.expr _), w, locals, hw | some (.declare _ _), w, locals, hw
  | some (.typeOnly _), w, locals, hw | some (.empty _), w, locals, hw =>
    insertions_lowerInner st _ (w.otherwise _) locals hw

theorem insertions_lowerStmts (st : Setting) : ∀ (body : List Stmt) (w : Way)
    (locals : List String), Mirrors w.declared locals →
      List.Forall₂ Stands (stmtsInsertions st w body)
        (stmtsNeeds locals (lowerStmts st (scopesAt w) body))
  | [], _, _, _ => .nil
  | s :: rest, w, locals, hw => by
    have hrest := insertions_lowerStmts st rest (w.past s) _ (hw.past st (scopesAt w) s)
    have hs := insertions_lowerInner st s (w.toward s) locals (by cases s <;> exact hw)
    rw [stmtsInsertions, lowerStmts_cons, stmtsNeeds_append, lowerStmt_snd]
    refine List.rel_append ?_ hrest
    rw [lowerStmt_fst]
    cases isBlock s
    · exact hs
    · rw [← List.append_nil (stmtsNeeds _ _)] at hs
      exact hs

end

/-- **Builtins are inserted one by one, and captured just where their names are taken**: the builtins of
the Lua script are those inserted, in order; a library function is captured if and only if the script
has declared its name on the way to it, and the element of a loop is always that of its own loop. -/
theorem insertions_lower (st : Setting) (body : List Stmt) :
    List.Forall₂ Stands (insertions st body) (stmtsNeeds [] (lower st body)) := by
  have hnone : Mirrors (Way.file body).declared [] := fun b _ => Iff.rfl
  exact insertions_lowerStmts st body (.file body) [] hnone

/-- A script may declare a name of the library. Inspection finds nothing wrong with this one, and in Lua
its pattern calls the number. -/
theorem declared_unpack_captures :
    let f := Script.File.read "input.ts" "const unpack = 1; const [a] = [2];" .es5
    let st : Setting := ⟨.lua51, Globals.bind []⟩
    Inspect.findings f st.globals = [] ∧
      Lua.stmtsText "\n" 0 (lower st f.statements) =
        "local unpack = 1\nlocal a = unpack(\x7b2\x7d)\n" ∧
      (stmtsNeeds [] (lower st f.statements)).map (fun n => (n.builtin, n.isCaptured)) =
        [(.unpack, true)] := by
  decide +kernel

end LuaSnippet.Lowering
