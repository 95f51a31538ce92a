import LuaSnippet.Proofs.Lowering.Delivery
import LuaSnippet.Proofs.Lowering.Names
import LuaSnippet.Proofs.Lua.Held
import LuaSnippet.Proofs.Script.Role
import LuaSnippet.Script.File

/-!
# Collected calls

A call that gives several values is collected into a table in some roles and not in others. The calls
of a script are lowered one by one, and what holds a lowered call follows from its role and from whether
it gives several values (`calls_lower`): the value of one variable, an assigned value, an argument, an
element and a property are collected, while tests, operands, owners and callees are not
(`single_values_bare`), although they are of one value as well.
-/

namespace LuaSnippet.Lowering

open Script (Expr Arg Field Stmt Binding Way Role CallSite exprCalls argCalls argsCalls fieldCalls
  fieldsCalls innerCalls elseCalls stmtsCalls)
open Lua (Holder HeldCall exprHeld exprsHeld fieldHeld fieldsHeld optionHeld stmtHeld elseHeld
  stmtsHeld)

/-! ### What is collected -/

/-- Whether a call that gives several values is collected in a role. -/
def collects : Role → Bool
  | .initial | .assigned | .argument false | .element false | .only false _ | .property => true
  | _ => false

/-- Whether all values of an expression are taken in a role that can take them all: a loop takes those
of a call that gives an iterator, and any other role those of a call that gives several values. -/
def takesAll (st : Setting) (ss : Scopes) (e : Expr) : Role → Bool
  | .iterated => isIterable st ss e
  | _ => isMulti st ss e

/-- A holder that takes an expression as it is, or else through a builtin. -/
def builtinUnless (direct : Bool) (h : Holder) : Holder :=
  if direct then h else .builtin

/-- What holds the lowered form of an expression that has a role, if it is not collected; `all` says
whether all its values are taken as they are. -/
def plainHolder (d : Dialect) (all : Bool) : Role → Holder
  | .initial => .declaration
  | .destructured => builtinUnless all .declaration
  | .target => .target
  | .assigned => .assigned
  | .iterated => builtinUnless all .iterator
  | .tested => .test
  | .returned => .result
  | .evaluated => .statement
  | .argument spread => builtinUnless (!spread || all) .argument
  | .element spread => builtinUnless (!spread || all) .item
  | .only spread array => builtinUnless (!spread || all) (.only (plainHolder d false array))
  | .property => .entry
  | .callee => .callee
  | .owner => .owner
  | .operand onBits => builtinUnless (!onBits || (bitLibrary? d).isNone) .operand

/-- What holds the lowered form of an expression that has a role: a call that is collected is the only
item of a table that stands where the call would stand. -/
def holderOf (st : Setting) (ss : Scopes) (r : Role) (e : Expr) : Holder :=
  if collects r && isMulti st ss e then .only (plainHolder st.dialect (takesAll st ss e r) r)
  else plainHolder st.dialect (takesAll st ss e r) r

/-- A call of a script and one of a Lua tree belong together: the one is the lowered form of the other,
in the scopes at its place, and is held as its role and its values ask for. -/
structure Carried (st : Setting) (p : CallSite) (q : HeldCall) : Prop where
  call_eq : q.call = lowerExpr st (scopesAt p.way) p.call
  holder_eq : q.holder = holderOf st (scopesAt p.way) p.role p.call

/-! ### Holders of the parts of a lowered script -/

variable {st : Setting} {ss : Scopes} {h : Holder}

theorem exprHeld_groupIf (h : Holder) (group : Bool) (e : Lua.Expr) :
    exprHeld h (groupIf group e) = exprHeld h e := by
  cases group <;> rfl

theorem exprHeld_collectIf (h : Holder) (multi : Bool) (e : Lua.Expr) :
    exprHeld h (collectIf multi e) = exprHeld (if multi then .only h else h) e := by
  cases multi with
  | false => rfl
  | true => exact List.append_nil _

theorem exprHeld_builtin (h : Holder) (b : Lua.Builtin) (args : List Lua.Expr) :
    exprHeld h (.call (.builtin b) args) = exprsHeld .builtin args :=
  rfl

theorem exprHeld_spreadUnless (h : Holder) (d : Dialect) (multi : Bool) (e : Lua.Expr) :
    exprHeld h (spreadUnless d multi e) = exprHeld (builtinUnless multi h) e := by
  cases multi with
  | false => exact List.append_nil _
  | true => rfl

theorem isBuiltin_lowerExpr (st : Setting) (ss : Scopes) :
    ∀ e : Expr, (lowerExpr st ss e).isBuiltin = false
  | .nonNull inner => isBuiltin_lowerExpr st ss inner
  | .unary op operand _ => by
    rw [lowerExpr]
    cases op with
    | bitNot =>
      rw [lowerUnary]
      split <;> rfl
    | not | neg => rfl
  | .binary op lhs rhs => by
    rw [lowerExpr, lowerBinary]
    split <;> rfl
  | .number _ _ | .string _ _ | .bool _ _ | .absent _ | .ident _ | .array _ _ | .object _ _
  | .call _ _ _ | .member _ _ | .paren _ _ | .arrow _ _ _ | .closure _ _ _ => rfl

theorem isBuiltin_groupIf {e : Lua.Expr} (he : e.isBuiltin = false) (group : Bool) :
    (groupIf group e).isBuiltin = false := by
  cases group with
  | false => exact he
  | true => rfl

theorem exprHeld_lowerUnary (d : Dialect) (op : Script.UnaryOp) (group : Bool) (e : Lua.Expr) :
    exprHeld h (lowerUnary d op group e) =
      exprHeld (plainHolder d false (.operand (op = .bitNot))) e := by
  cases op with
  | not => exact exprHeld_groupIf .operand group e
  | neg => exact (exprHeld_groupIf .operand _ _).trans (exprHeld_groupIf .operand group e)
  | bitNot =>
    rw [lowerUnary]
    cases hlib : bitLibrary? d with
    | some lib => simp [exprHeld_builtin, exprsHeld, plainHolder, builtinUnless, hlib]
    | none => simp [exprHeld, exprHeld_groupIf, plainHolder, builtinUnless, hlib]

theorem exprHeld_lowerBinary (d : Dialect) (op : Script.BinaryOp) (lhs rhs : Expr)
    (l r : Lua.Expr) :
    exprHeld h (lowerBinary d op lhs rhs l r) =
      exprHeld (plainHolder d false (.operand op.isBitwise)) l ++
        exprHeld (plainHolder d false (.operand op.isBitwise)) r := by
  rw [lowerBinary]
  cases hbits : op.isBitwise with
  | false => simp [bitCall?, hbits, exprHeld, exprHeld_groupIf, plainHolder, builtinUnless]
  | true =>
    cases hlib : bitLibrary? d with
    | some lib =>
      simp [bitCall?, hbits, hlib, exprHeld_builtin, exprsHeld, plainHolder, builtinUnless]
    | none => simp [bitCall?, hbits, hlib, exprHeld, exprHeld_groupIf, plainHolder, builtinUnless]

theorem stmtsHeld_packRest (params : List Script.Param) (body : List Lua.Stmt) :
    stmtsHeld (packRest params ++ body) = stmtsHeld body := by
  rw [packRest]
  cases restName? params <;> rfl

theorem stmtHeld_declareWith (st : Setting) (ss : Scopes) (b : Binding) (init : Expr)
    (e : Lua.Expr) :
    stmtHeld (declareWith st ss b init e) =
      exprHeld (holderOf st ss (.ofBinding b) init) e := by
  rw [declareWith, stmtHeld, optionHeld]
  cases b with
  | single name => exact exprHeld_collectIf .declaration (isMulti st ss init) e
  | pattern names => exact exprHeld_spreadUnless .declaration st.dialect (isMulti st ss init) e

theorem stmtHeld_loop (st : Setting) (ss : Scopes) (b : Binding) (iterable : Expr) (e : Lua.Expr)
    (body : List Lua.Stmt) :
    stmtHeld (loop st b (isIterable st ss iterable) e body) =
      exprHeld (holderOf st ss .iterated iterable) e ++ stmtsHeld body := by
  have hhead : stmtsHeld ((loopHead st.dialect b).2 ++ body) = stmtsHeld body := by
    cases b <;> rfl
  have hipairs : exprHeld .iterator (.call (.builtin .ipairs) [e]) = exprHeld .builtin e := by
    rw [exprHeld_builtin, exprsHeld, exprsHeld, List.append_nil]
  have hholder : holderOf st ss .iterated iterable =
      builtinUnless (isIterable st ss iterable) .iterator := rfl
  rw [loop, hholder]
  cases isIterable st ss iterable with
  | true => rfl
  | false =>
    show exprHeld .iterator (.call (.builtin .ipairs) [e]) ++ stmtsHeld (_ ++ body) = _
    rw [hhead, hipairs]
    rfl

/-! ### Lists of arguments -/

/-- The roles of arguments fit what holds them in Lua: a plain one is collected if it gives several
values, and a spread one is unpacked if it does not. -/
structure Seats (st : Setting) (role : Bool → Role) (h : Holder) : Prop where
  plain : ∀ ss e, holderOf st ss (role false) e = if isMulti st ss e then .only h else h
  spread : ∀ ss e, holderOf st ss (role true) e = builtinUnless (isMulti st ss e) h

theorem seats_argument (st : Setting) : Seats st .argument .argument where
  plain _ _ := rfl
  spread _ _ := rfl

theorem seats_element (st : Setting) : Seats st .element .item where
  plain _ _ := rfl
  spread _ _ := rfl

theorem seats_only (st : Setting) (array : Role) :
    Seats st (.only · array) (.only (plainHolder st.dialect false array)) where
  plain _ _ := rfl
  spread _ _ := rfl

theorem length_lowerItems (st : Setting) (ss : Scopes) (elements : List Arg) :
    (lowerItems st ss elements).length = elements.length := by
  induction elements with
  | nil => rfl
  | cons a rest ih => rw [lowerItems, List.length_cons, ih, List.length_cons]

theorem holderOf_array (st : Setting) (ss : Scopes) (r : Role) (elements : List Arg)
    (span : Script.Span) :
    holderOf st ss r (.array elements span) = plainHolder st.dialect false r := by
  have hmulti : isMulti st ss (.array elements span) = false := rfl
  rw [holderOf, hmulti, Bool.and_false]
  cases r <;> rfl

theorem seats_ofElements (st : Setting) (ss : Scopes) (r : Role) (elements : List Arg)
    (span : Script.Span) :
    Seats st (r.ofElements elements)
      ((holderOf st ss r (.array elements span)).ofItems (lowerItems st ss elements)) := by
  rw [holderOf_array, Holder.ofItems, length_lowerItems]
  unfold Role.ofElements
  by_cases hlength : elements.length = 1
  · simp only [if_pos hlength]
    exact seats_only st r
  · simp only [if_neg hlength]
    exact seats_element st

/-! ### Calls are lowered one by one -/

mutual

theorem calls_lowerExpr (st : Setting) : ∀ (e : Expr) (w : Way) (r : Role),
    List.Forall₂ (Carried st) (exprCalls w r e)
      (exprHeld (holderOf st (scopesAt w) r e) (lowerExpr st (scopesAt w) e))
  | .number _ _, _, _ | .string _ _, _, _ | .bool _ _, _, _ | .absent _, _, _ | .ident _, _, _ => .nil
  | .array elements span, w, r => by
    have hseats := seats_ofElements st (scopesAt w) r elements span
    rw [exprCalls, lowerExpr, exprHeld]
    exact calls_lowerItems st elements w hseats
  | .object fields _, w, r => by
    rw [exprCalls, lowerExpr, exprHeld]
    exact calls_lowerFields st fields w _
  | .call callee args span, w, r => by
    have hcallee := calls_lowerExpr st callee w .callee
    have hargs := calls_lowerArgs st args w (seats_argument st)
    have hbuiltin := isBuiltin_groupIf (isBuiltin_lowerExpr st (scopesAt w) callee)
      (groupsAsCallee callee)
    have hself : List.Forall₂ (Carried st) [⟨.call callee args span, w, r⟩]
        [⟨lowerExpr st (scopesAt w) (.call callee args span),
          holderOf st (scopesAt w) r (.call callee args span)⟩] :=
      .cons ⟨rfl, rfl⟩ .nil
    rw [exprCalls, lowerExpr, exprHeld, exprHeld_groupIf, hbuiltin, List.append_assoc]
    exact List.rel_append hcallee (List.rel_append hargs hself)
  | .member owner _, w, r => by
    rw [exprCalls, lowerExpr, exprHeld, exprHeld_groupIf]
    exact calls_lowerExpr st owner w .owner
  | .nonNull inner, w, r | .paren inner _, w, r => calls_lowerExpr st inner w r
  | .unary op operand _, w, r => by
    rw [exprCalls, lowerExpr, exprHeld_lowerUnary]
    exact calls_lowerExpr st operand w (.operand (op = .bitNot))
  | .binary op lhs rhs, w, r => by
    rw [exprCalls, lowerExpr, exprHeld_lowerBinary]
    exact List.rel_append (calls_lowerExpr st lhs w (.operand op.isBitwise))
      (calls_lowerExpr st rhs w (.operand op.isBitwise))
  | .arrow params value _, w, r => calls_lowerExpr st value (w.arrow params) .returned
  | .closure params body _, w, r => by
    rw [exprCalls, lowerExpr, exprHeld, stmtsHeld_packRest]
    exact calls_lowerStmts st body (w.closure params body)

theorem calls_lowerArg (st : Setting) : ∀ (a : Arg) (w : Way) {role : Bool → Role} {h : Holder},
    Seats st role h → List.Forall₂ (Carried st) (argCalls w role a)
      (exprHeld h (lowerArg st (scopesAt w) a))
  | .plain value, w, role, h, hseats => by
    rw [argCalls, lowerArg, exprHeld_collectIf, ← hseats.plain]
    exact calls_lowerExpr st value w (role false)
  | .spread value, w, role, h, hseats => by
    rw [argCalls, lowerArg, exprHeld_spreadUnless, ← hseats.spread]
    exact calls_lowerExpr st value w (role true)

theorem calls_lowerArgs (st : Setting) : ∀ (args : List Arg) (w : Way) {role : Bool → Role}
    {h : Holder}, Seats st role h → List.Forall₂ (Carried st) (argsCalls w role args)
      (exprsHeld h (lowerArgs st (scopesAt w) args))
  | [], _, _, _, _ => .nil
  | a :: rest, w, _, _, hseats => by
    rw [argsCalls, lowerArgs, exprsHeld]
    exact List.rel_append (calls_lowerArg st a w hseats) (calls_lowerArgs st rest w hseats)

theorem calls_lowerItems (st : Setting) : ∀ (args : List Arg) (w : Way) {role : Bool → Role}
    {h : Holder}, Seats st role h → List.Forall₂ (Carried st) (argsCalls w role args)
      (fieldsHeld h (lowerItems st (scopesAt w) args))
  | [], _, _, _, _ => .nil
  | a :: rest, w, _, _, hseats => by
    rw [argsCalls, lowerItems, fieldsHeld, fieldHeld]
    exact List.rel_append (calls_lowerArg st a w hseats) (calls_lowerItems st rest w hseats)

theorem calls_lowerField (st : Setting) : ∀ (f : Field) (w : Way) (h : Holder),
    List.Forall₂ (Carried st) (fieldCalls w f) (fieldHeld h (lowerField st (scopesAt w) f))
  | .mk _ value, w, h => by
    rw [fieldCalls, lowerField, fieldHeld, exprHeld_collectIf]
    exact calls_lowerExpr st value w .property

theorem calls_lowerFields (st : Setting) : ∀ (fields : List Field) (w : Way) (h : Holder),
    List.Forall₂ (Carried st) (fieldsCalls w fields)
      (fieldsHeld h (lowerFields st (scopesAt w) fields))
  | [], _, _ => .nil
  | f :: rest, w, h => by
    rw [fieldsCalls, lowerFields, fieldsHeld]
    exact List.rel_append (calls_lowerField st f w h) (calls_lowerFields st rest w h)

theorem calls_lowerInner (st : Setting) : ∀ (s : Stmt) (w : Way),
    List.Forall₂ (Carried st) (innerCalls w s) (stmtsHeld (lowerInner st (scopesAt w) s).1)
  | .bind _ _ none _, _ => .nil
  | .bind _ binding (some init) _, w => by
    rw [lowerInner, stmtsHeld, stmtHeld_declareWith, stmtsHeld, List.append_nil]
    exact calls_lowerExpr st init w (.ofBinding binding)
  | .function name params body _, w => by
    rw [lowerInner, stmtsHeld, stmtHeld, stmtsHeld_packRest, stmtsHeld, List.append_nil]
    exact calls_lowerStmts st body (w.function name params body)
  | .assign target value _, w => by
    rw [lowerInner, stmtsHeld, stmtHeld, exprHeld_collectIf, stmtsHeld, List.append_nil, innerCalls]
    exact List.rel_append (calls_lowerExpr st target w .target)
      (calls_lowerExpr st value w .assigned)
  | .forOf binding iterable body _, w => by
    rw [lowerInner, stmtsHeld, stmtHeld_loop, stmtsHeld, List.append_nil, innerCalls]
    exact List.rel_append (calls_lowerExpr st iterable w .iterated)
      (calls_lowerInner st body (w.loop binding body))
  | .cond test whenTrue whenFalse _, w => by
    rw [lowerInner, stmtsHeld, stmtHeld, stmtsHeld, List.append_nil, innerCalls]
    exact List.rel_append (List.rel_append (calls_lowerExpr st test w .tested)
      (calls_lowerInner st whenTrue (w.branch whenTrue))) (calls_lowerElse st whenFalse w)
  | .result none _, _ => .nil
  | .result (some value) _, w => by
    rw [lowerInner, stmtsHeld, stmtHeld, stmtsHeld, List.append_nil]
    exact calls_lowerExpr st value w .returned
  | .block body _, w => calls_lowerStmts st body w
  | .expr e, w => by
    have he := calls_lowerExpr st e w .evaluated
    rw [← List.append_nil (exprHeld _ _)] at he
    rw [lowerInner]
    cases isCall e <;> exact he
  | .declare _ _, _ | .typeOnly _, _ | .empty _, _ => .nil

theorem calls_lowerElse (st : Setting) : ∀ (rest : Option Stmt) (w : Way),
    List.Forall₂ (Carried st) (elseCalls w rest) (elseHeld (lowerElse st (scopesAt w) rest))
  | none, _ => .nil
  | some (.cond test whenTrue whenFalse span), w => by
    have hcalls : elseCalls w (some (.cond test whenTrue whenFalse span)) =
        exprCalls (w.otherwise (.cond test whenTrue whenFalse span)) .tested test ++
          innerCalls ((w.otherwise (.cond test whenTrue whenFalse span)).branch whenTrue)
            whenTrue ++
          elseCalls (w.otherwise (.cond test whenTrue whenFalse span)) whenFalse := rfl
    rw [hcalls, lowerElse, elseHeld]
    exact List.rel_append (List.rel_append (calls_lowerExpr st test (w.otherwise _) .tested)
      (calls_lowerInner st whenTrue ((w.otherwise _).branch whenTrue)))
      (calls_lowerElse st whenFalse (w.otherwise _))
  | some (.bind _ _ _ _), w | some (.function _ _ _ _), w | some (.assign _ _ _), w
  | some (.forOf _ _ _ _), w | some (.result _ _), w | some (.block _ _), w | some (.expr _), w
  | some (.declare _ _), w | some (.typeOnly _), w | some (.empty _), w =>
    calls_lowerInner st _ (w.otherwise _)

theorem calls_lowerStmts (st : Setting) : ∀ (body : List Stmt) (w : Way),
    List.Forall₂ (Carried st) (stmtsCalls w body) (stmtsHeld (lowerStmts st (scopesAt w) body))
  | [], _ => .nil
  | s :: rest, w => by
    have hs := calls_lowerInner st s (w.toward s)
    rw [stmtsCalls, lowerStmts_cons, Lua.stmtsHeld_append, lowerStmt_snd]
    refine List.rel_append ?_ (calls_lowerStmts st rest (w.past s))
    rw [lowerStmt_fst]
    cases isBlock s with
    | false => exact hs
    | true =>
      rw [← List.append_nil (stmtsHeld _)] at hs
      exact hs

end

/-- **Calls are collected in some roles of one value.** The calls of a script, which are all among its
sites that are calls, are lowered one by one. One that gives several values is the only item of a table,
which stands where another call would stand, if it is the value of one variable, an assigned value, a
property, or an argument or an element that is not spread; in every other role, it is held as its role
asks for without a table of its own. -/
theorem calls_lower (st : Setting) (body : List Stmt) :
    Script.AreCallsOf (Script.calls body) (Script.sites body) ∧
      List.Forall₂ (Carried st) (Script.calls body) (stmtsHeld (lower st body)) := by
  refine ⟨?_, ?_⟩
  · exact Script.areCallsOf_stmts body (.file body)
  · exact calls_lowerStmts st body (.file body)

/-- A test, an operand, an owner and a callee are of one value too, but a call that gives several is
written there as it is. -/
theorem single_values_bare :
    let body := (Script.File.read "input.ts"
      "if (pair()) { } else if (!pair()) { }\nconst s = pair() + 1;\npair().m;\npair()();"
      .es5).statements
    (Script.calls body).map
        (fun p => (p.role, isMulti rowsSetting (scopesAt p.way) p.call, collects p.role)) =
      [(.tested, true, false), (.operand false, true, false), (.operand false, true, false),
        (.owner, true, false), (.callee, true, false), (.evaluated, false, false)] ∧
    Lua.stmtsText "\n" 0 (lower rowsSetting body) =
      "if pair() then\nelseif not pair() then\nend\nlocal s = pair() + 1\n" ++
        "local ____ = pair().m\npair()()\n" := by
  decide +kernel

end LuaSnippet.Lowering
