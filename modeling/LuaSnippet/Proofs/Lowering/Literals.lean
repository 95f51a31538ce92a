import LuaSnippet.Proofs.Lowering.Operators
import LuaSnippet.Proofs.Lua.Literal
import LuaSnippet.Proofs.Lua.Strings

/-!
# Strings of a script in Lua

The strings of a script are its string literals, and the keys that are no names in Lua. Lowering keeps
them in their order, and the text that is printed has one string literal for each. So what Lua makes of a
script's strings is what it makes of their literals, one by one (`literals_lower`).
-/

namespace LuaSnippet.Script

open Lua (quotedKey)

mutual

/-- The strings of an expression, in the order of its text. -/
def exprStrings : Expr → List String
  | .string value _ => [value]
  | .number _ _ | .bool _ _ | .absent _ | .ident _ => []
  | .array elements _ => argsStrings elements
  | .object fields _ => fieldsStrings fields
  | .call callee args _ => exprStrings callee ++ argsStrings args
  | .member owner property => exprStrings owner ++ quotedKey property.name
  | .nonNull inner => exprStrings inner
  | .paren inner _ => exprStrings inner
  | .unary _ operand _ => exprStrings operand
  | .binary _ lhs rhs => exprStrings lhs ++ exprStrings rhs
  | .arrow _ value _ => exprStrings value
  | .closure _ body _ => stmtsStrings body

def argStrings : Arg → List String
  | .plain value => exprStrings value
  | .spread value => exprStrings value

def argsStrings : List Arg → List String
  | [] => []
  | a :: rest => argStrings a ++ argsStrings rest

def fieldStrings : Field → List String
  | .mk key value => quotedKey key ++ exprStrings value

def fieldsStrings : List Field → List String
  | [] => []
  | f :: rest => fieldStrings f ++ fieldsStrings rest

def optionStrings : Option Expr → List String
  | none => []
  | some e => exprStrings e

def stmtStrings : Stmt → List String
  | .bind _ _ init _ => optionStrings init
  | .function _ _ body _ => stmtsStrings body
  | .assign target value _ => exprStrings target ++ exprStrings value
  | .forOf _ iterable body _ => exprStrings iterable ++ stmtStrings body
  | .cond test whenTrue whenFalse _ =>
    exprStrings test ++ (stmtStrings whenTrue ++ elseStrings whenFalse)
  | .result value _ => optionStrings value
  | .block body _ => stmtsStrings body
  | .expr e => exprStrings e
  | .declare _ _ | .typeOnly _ | .empty _ => []

def elseStrings : Option Stmt → List String
  | none => []
  | some s => stmtStrings s

/-- The strings of some statements. -/
def stmtsStrings : List Stmt → List String
  | [] => []
  | s :: rest => stmtStrings s ++ stmtsStrings rest

end

end LuaSnippet.Script

namespace LuaSnippet.Lowering

open Script (Expr Arg Field Stmt Param Binding)

/-! ### Strings of the parts of a lowered script -/

theorem exprStrings_groupIf (group : Bool) (e : Lua.Expr) :
    Lua.exprStrings (groupIf group e) = Lua.exprStrings e := by
  cases group <;> rfl

theorem exprStrings_collectIf (multi : Bool) (e : Lua.Expr) :
    Lua.exprStrings (collectIf multi e) = Lua.exprStrings e := by
  cases multi with
  | false => rfl
  | true => exact List.append_nil _

theorem exprStrings_spreadUnless (d : Dialect) (multi : Bool) (e : Lua.Expr) :
    Lua.exprStrings (spreadUnless d multi e) = Lua.exprStrings e := by
  cases multi with
  | false => exact List.append_nil _
  | true => rfl

theorem exprStrings_lowerUnary (d : Dialect) (op : Script.UnaryOp) (group : Bool) (e : Lua.Expr) :
    Lua.exprStrings (lowerUnary d op group e) = Lua.exprStrings e := by
  cases op with
  | not => exact exprStrings_groupIf group e
  | neg => exact (exprStrings_groupIf _ _).trans (exprStrings_groupIf group e)
  | bitNot =>
    rw [lowerUnary]
    split
    · exact List.append_nil _
    · exact exprStrings_groupIf group e

theorem exprStrings_lowerBinary (d : Dialect) (op : Script.BinaryOp) (lhs rhs : Expr)
    (l r : Lua.Expr) :
    Lua.exprStrings (lowerBinary d op lhs rhs l r) = Lua.exprStrings l ++ Lua.exprStrings r := by
  rw [lowerBinary]
  split
  · simp [Lua.exprStrings, Lua.exprsStrings]
  · simp only [Lua.exprStrings, exprStrings_groupIf]

theorem stmtStrings_declareWith (st : Setting) (ss : Scopes) (b : Binding) (init : Expr)
    (e : Lua.Expr) : Lua.stmtStrings (declareWith st ss b init e) = Lua.exprStrings e := by
  rw [declareWith, Lua.stmtStrings, Lua.optionStrings]
  cases isPattern b with
  | false => exact exprStrings_collectIf _ e
  | true => exact exprStrings_spreadUnless _ _ e

theorem stmtsStrings_packRest (params : List Param) (body : List Lua.Stmt) :
    Lua.stmtsStrings (packRest params ++ body) = Lua.stmtsStrings body := by
  rw [packRest]
  cases restName? params <;> rfl

theorem stmtStrings_loop (st : Setting) (b : Binding) (iterable : Bool) (e : Lua.Expr)
    (body : List Lua.Stmt) :
    Lua.stmtStrings (loop st b iterable e body) = Lua.exprStrings e ++ Lua.stmtsStrings body := by
  cases iterable with
  | true => rfl
  | false => cases b <;> simp [loop, loopHead, isPattern, Lua.stmtStrings, Lua.exprStrings,
      Lua.exprsStrings, Lua.stmtsStrings, Lua.optionStrings, unpack]

/-! ### Strings are kept -/

mutual

theorem strings_lowerExpr (st : Setting) : ∀ (e : Expr) (ss : Scopes),
    Lua.exprStrings (lowerExpr st ss e) = Script.exprStrings e
  | .number _ _, _ | .string _ _, _ | .bool _ _, _ | .absent _, _ | .ident _, _ => rfl
  | .array elements _, ss => strings_lowerItems st elements ss
  | .object fields _, ss => strings_lowerFields st fields ss
  | .call callee args _, ss => by
    rw [lowerExpr, Lua.exprStrings, exprStrings_groupIf, strings_lowerExpr st callee ss,
      strings_lowerArgs st args ss, Script.exprStrings]
  | .member owner property, ss => by
    rw [lowerExpr, Lua.exprStrings, exprStrings_groupIf, strings_lowerExpr st owner ss,
      Script.exprStrings]
  | .nonNull inner, ss | .paren inner _, ss => strings_lowerExpr st inner ss
  | .unary op operand _, ss => by
    rw [lowerExpr, exprStrings_lowerUnary, strings_lowerExpr st operand ss, Script.exprStrings]
  | .binary op lhs rhs, ss => by
    rw [lowerExpr, exprStrings_lowerBinary, strings_lowerExpr st lhs ss, strings_lowerExpr st rhs ss,
      Script.exprStrings]
  | .arrow params value _, ss => strings_lowerExpr st value _
  | .closure params body _, ss => by
    rw [lowerExpr, Lua.exprStrings, stmtsStrings_packRest, strings_lowerStmts st body _,
      Script.exprStrings]

theorem strings_lowerArg (st : Setting) : ∀ (a : Arg) (ss : Scopes),
    Lua.exprStrings (lowerArg st ss a) = Script.argStrings a
  | .plain value, ss => by
    rw [lowerArg, exprStrings_collectIf, strings_lowerExpr st value ss, Script.argStrings]
  | .spread value, ss => by
    rw [lowerArg, exprStrings_spreadUnless, strings_lowerExpr st value ss, Script.argStrings]

theorem strings_lowerArgs (st : Setting) : ∀ (args : List Arg) (ss : Scopes),
    Lua.exprsStrings (lowerArgs st ss args) = Script.argsStrings args
  | [], _ => rfl
  | a :: rest, ss => by
    rw [lowerArgs, Lua.exprsStrings, strings_lowerArg st a ss, strings_lowerArgs st rest ss,
      Script.argsStrings]

theorem strings_lowerItems (st : Setting) : ∀ (args : List Arg) (ss : Scopes),
    Lua.fieldsStrings (lowerItems st ss args) = Script.argsStrings args
  | [], _ => rfl
  | a :: rest, ss => by
    rw [lowerItems, Lua.fieldsStrings, Lua.fieldStrings, strings_lowerArg st a ss,
      strings_lowerItems st rest ss, Script.argsStrings]

theorem strings_lowerField (st : Setting) : ∀ (f : Field) (ss : Scopes),
    Lua.fieldStrings (lowerField st ss f) = Script.fieldStrings f
  | .mk key value, ss => by
    rw [lowerField, Lua.fieldStrings, exprStrings_collectIf, strings_lowerExpr st value ss,
      Script.fieldStrings]

theorem strings_lowerFields (st : Setting) : ∀ (fields : List Field) (ss : Scopes),
    Lua.fieldsStrings (lowerFields st ss fields) = Script.fieldsStrings fields
  | [], _ => rfl
  | f :: rest, ss => by
    rw [lowerFields, Lua.fieldsStrings, strings_lowerField st f ss, strings_lowerFields st rest ss,
      Script.fieldsStrings]

theorem strings_lowerInner (st : Setting) : ∀ (s : Stmt) (ss : Scopes),
    Lua.stmtsStrings (lowerInner st ss s).1 = Script.stmtStrings s
  | .bind _ _ none _, _ | .result none _, _ | .declare _ _, _ | .typeOnly _, _ | .empty _, _ => rfl
  | .bind _ binding (some init) _, ss => by
    rw [lowerInner, Lua.stmtsStrings, stmtStrings_declareWith, strings_lowerExpr st init ss]
    exact List.append_nil _
  | .function name params body _, ss => by
    rw [lowerInner, Lua.stmtsStrings, Lua.stmtStrings, stmtsStrings_packRest,
      strings_lowerStmts st body _]
    exact List.append_nil _
  | .assign target value _, ss => by
    rw [lowerInner, Lua.stmtsStrings, Lua.stmtStrings, exprStrings_collectIf,
      strings_lowerExpr st target ss, strings_lowerExpr st value ss]
    exact List.append_nil _
  | .forOf binding iterable body _, ss => by
    rw [lowerInner, Lua.stmtsStrings, stmtStrings_loop, strings_lowerExpr st iterable ss,
      strings_lowerInner st body _]
    exact List.append_nil _
  | .cond test whenTrue whenFalse _, ss => by
    rw [lowerInner, Lua.stmtsStrings, Lua.stmtStrings, strings_lowerExpr st test ss,
      strings_lowerInner st whenTrue _, strings_lowerElse st whenFalse ss]
    exact List.append_nil _
  | .result (some value) _, ss => by
    rw [lowerInner, Lua.stmtsStrings, Lua.stmtStrings, Lua.optionStrings,
      strings_lowerExpr st value ss]
    exact List.append_nil _
  | .block body _, ss => strings_lowerStmts st body ss
  | .expr e, ss => by
    rw [Script.stmtStrings, ← strings_lowerExpr st e ss, lowerInner]
    cases isCall e <;> exact List.append_nil _

theorem strings_lowerElse (st : Setting) : ∀ (rest : Option Stmt) (ss : Scopes),
    Lua.elseStrings (lowerElse st ss rest) = Script.elseStrings rest
  | none, _ => rfl
  | some (.cond test whenTrue whenFalse _), ss => by
    rw [lowerElse, Lua.elseStrings, strings_lowerExpr st test ss, strings_lowerInner st whenTrue _,
      strings_lowerElse st whenFalse ss]
    rfl
  | some (.bind _ _ _ _), ss | some (.function _ _ _ _), ss | some (.assign _ _ _), ss
  | some (.forOf _ _ _ _), ss | some (.result _ _), ss | some (.block _ _), ss
  | some (.expr _), ss | some (.declare _ _), ss | some (.typeOnly _), ss | some (.empty _), ss =>
    strings_lowerInner st _ ([] :: ss)

theorem strings_lowerStmts (st : Setting) : ∀ (body : List Stmt) (ss : Scopes),
    Lua.stmtsStrings (lowerStmts st ss body) = Script.stmtsStrings body
  | [], _ => rfl
  | s :: rest, ss => by
    have hs : Lua.stmtsStrings (lowerStmt st ss s).1 = Script.stmtStrings s := by
      rw [lowerStmt]
      cases isBlock s with
      | false => exact strings_lowerInner st s ss
      | true => exact (List.append_nil _).trans (strings_lowerInner st s ([] :: ss))
    rw [lowerStmts_cons, Lua.stmtsStrings_append, hs, strings_lowerStmts st rest _,
      Script.stmtsStrings]

end

/-! ### The literals of a lowered script -/

open Lua (IsLineEnd ReadsBack Token quote stmtsText tokens?)

/-- **Strings reach Lua unchanged unless a zero stands before a digit.** This holds of every string that
is quoted, and so of every script: the string literals in its Lua text are those of its string literals
and quoted keys, one by one. -/
theorem literals_lower (st : Setting) :
    (∀ s : String, ReadsBack s (quote s).toList) ∧
      ∀ (text newLine : String) (body : List Stmt), Script.read text = .ok body →
        IsLineEnd newLine → ∃ ts, tokens? (stmtsText newLine 0 (lower st body)).toList = some ts ∧
          List.Forall₂ (fun s t => ReadsBack s t.chars) (Script.stmtsStrings body)
            (ts.filter Token.isText) := by
  refine ⟨Lua.readsBack_quote, fun text newLine body hread hline => ?_⟩
  have hprintable : Lua.StmtsPrintable (lower st body) :=
    printable_lowerStmts st [[]] body (Script.wellFormed_of_read hread)
  obtain ⟨hvalid, hchain⟩ : Lua.Legible (Lua.stmtsGroups newLine 0 (lower st body)) := by
    have h := (Lua.legible_stmtsGroups_append hline 0 _ hprintable []).mpr Lua.legible_nil
    rwa [List.append_nil] at h
  refine ⟨Lua.tokensOf (Lua.stmtsGroups newLine 0 (lower st body)), ?_, ?_⟩
  · rw [← Lua.charsOf_stmtsGroups]
    exact Lua.tokens?_flatMap hvalid hchain
  · have htexts := Lua.textsOf_stmtsGroups newLine 0 hprintable
    rw [Lua.textsOf, lower, strings_lowerStmts] at htexts
    rw [lower, htexts, Lua.literals, List.forall₂_map_right_iff, List.forall₂_same]
    intro s _
    have hchars : (Token.text s).chars = (quote s).toList := by
      rw [quote, String.toList_ofList]
      rfl
    rw [hchars]
    exact Lua.readsBack_quote s

/-- A script with a string literal, a quoted key of an object and a quoted key of a member. -/
def quotedText : String := "const o = \x7b \"a b\": \"\\0x\\n\" \x7d; print(o.$c);"

theorem quotedText_literals : ∃ body ts, Script.read quotedText = .ok body ∧ IsLineEnd "\n" ∧
    Script.stmtsStrings body = ["a b", "\x00x\n", "$c"] ∧
    tokens? (stmtsText "\n" 0 (lower bareSetting body)).toList = some ts ∧
    List.Forall₂ (fun s t => ReadsBack s t.chars) (Script.stmtsStrings body)
      (ts.filter Token.isText) := by
  have hstrings : (Script.read quotedText).toOption.map Script.stmtsStrings =
      some ["a b", "\x00x\n", "$c"] := by
    decide +kernel
  have hline : IsLineEnd "\n" := ⟨by decide, List.all_eq_true.mp (by decide)⟩
  cases hread : Script.read quotedText with
  | error refusal => simp [hread, Except.toOption] at hstrings
  | ok body =>
    rw [hread] at hstrings
    obtain ⟨ts, hts, hliterals⟩ := (literals_lower bareSetting).2 quotedText "\n" body hread hline
    exact ⟨body, ts, rfl, hline, Option.some.inj hstrings, hts, hliterals⟩

/-- A zero before the digit one: in the script the string has two characters, and Lua takes its literal
for one byte. -/
theorem zero_before_digit_taken :
    (Script.read "print(\"\\01\");").toOption.map
        (fun body => (Script.stmtsStrings body, stmtsText "\n" 0 (lower bareSetting body))) =
      some (["\x001"], "print(\"\\01\")\n") ∧
    quote "\x001" = "\"\\01\"" ∧ Lua.literalBytes? (Lua.bytesOf (quote "\x001").toList) = some [1] ∧
    "\x001".toUTF8.data.toList = [0, 49] := by
  refine ⟨by decide +kernel, by decide, by decide, ?_⟩
  rw [← Lua.bytesOf_toList]
  decide

end LuaSnippet.Lowering
