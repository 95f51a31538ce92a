import LuaSnippet.Proofs.Lua.Reading
import LuaSnippet.Proofs.Lowering.Printable
import LuaSnippet.Proofs.Script.Soundness

/-!
# Lowering keeps the operators

The operators that are read off the Lua text of an expression are those of the expression, each in its
Lua form, with groups and non-null marks left out (`operators_kept_by_lowering`). So no operand is ever
regrouped, although scripts and Lua order the levels of their operators differently: an operand is
grouped wherever Lua would take it apart (`needsGroup`).
-/

namespace LuaSnippet.Lowering

open Script (Expr Stmt UnaryOp BinaryOp Phrase)
open Lua (BinOp OperatorTree IsLineEnd exprText)

/-! ### Operators in their Lua form -/

/-- The name of the library of a dialect that has operations on bits only there. -/
def bitLibraryName? : Dialect → Option String
  | .lua52 => some "bit32"
  | .luaJit => some "bit"
  | .lua51 | .lua53 => none

/-- The name of the function of a library for a binary operator on bits. -/
def bitFunctionName? : BinaryOp → Option String
  | .bitAnd => some "band"
  | .bitOr => some "bor"
  | .bitXor => some "bxor"
  | .shl => some "lshift"
  | .shr => some "arshift"
  | .ushr => some "rshift"
  | _ => none

def unarySign : UnaryOp → String
  | .not => "not"
  | .neg => "-"
  | .bitNot => "~"

/-- The Lua sign for a binary operator between two operands. -/
def binarySign (op : BinaryOp) (lhs rhs : Expr) : String :=
  match op with
  | .or => "or"
  | .and => "and"
  | .strictEq | .eq => "=="
  | .strictNe | .ne => "~="
  | .lt => "<"
  | .le => "<="
  | .gt => ">"
  | .ge => ">="
  | .bitOr => "|"
  | .bitXor => "~"
  | .bitAnd => "&"
  | .shl => "<<"
  | .shr | .ushr => ">>"
  | .add => if isStringLiteral lhs || isStringLiteral rhs then ".." else "+"
  | .sub => "-"
  | .mul => "*"
  | .div => "/"
  | .mod => "%"

/-- The Lua form of a unary operator, given the text and the operators of its operand. Where a dialect
has operations on bits only in a library, it is a call. -/
def unaryTree (d : Dialect) (op : UnaryOp) (text : String) (operand : OperatorTree) : OperatorTree :=
  match op, bitLibraryName? d with
  | .bitNot, some library => .leaf (library ++ ".bnot(" ++ text ++ ")")
  | _, _ => .sign (unarySign op) operand

/-- The Lua form of a binary operator with a sign, given the texts and the operators of its operands. -/
def binaryTree (d : Dialect) (op : BinaryOp) (sign : String) (texts : String × String)
    (lhs rhs : OperatorTree) : OperatorTree :=
  match bitFunctionName? op, bitLibraryName? d with
  | some name, some library =>
    .leaf (library ++ "." ++ name ++ "(" ++ texts.1 ++ ", " ++ texts.2 ++ ")")
  | _, _ => .binary sign lhs rhs

/-- The operators of an expression in their Lua form, given the Lua texts of operands. Groups and
non-null marks leave no trace. -/
def operatorTree (d : Dialect) (text : Expr → String) : Expr → OperatorTree
  | .paren inner _ | .nonNull inner => operatorTree d text inner
  | .unary op operand _ => unaryTree d op (text operand) (operatorTree d text operand)
  | .binary op lhs rhs =>
    binaryTree d op (binarySign op lhs rhs) (text lhs, text rhs) (operatorTree d text lhs)
      (operatorTree d text rhs)
  | e => .leaf (text e)

/-! ### Levels -/

theorem op?_lowerUnary (d : Dialect) (op : UnaryOp) (group : Bool) (e : Lua.Expr) :
    (lowerUnary d op group e).op? = none := by
  cases op with
  | bitNot =>
    rw [lowerUnary]
    split <;> rfl
  | _ => rfl

theorem op?_of_isOperand {e : Lua.Expr} (he : e.isOperand = true) : e.op? = none := by
  cases e with
  | binary => simp [Lua.Expr.isOperand] at he
  | _ => rfl

variable (st : Setting) (ss : Scopes)

theorem loweredLevel_of_op? {e : Expr} (he : e.WellFormed) {op' : BinOp}
    (hop : (lowerExpr st ss e).op? = some op') :
    loweredLevel st.dialect e = some op'.level := by
  cases e with
  | binary op lhs rhs =>
    rw [lowerExpr, lowerBinary] at hop
    rw [loweredLevel]
    cases hcall : bitCall? st.dialect op with
    | some f =>
      rw [hcall] at hop
      simp [Lua.Expr.op?] at hop
    | none =>
      rw [hcall] at hop
      have hsame : binOp op lhs rhs = op' := Option.some.inj hop
      rw [← hsame]
  | unary op operand span =>
    rw [lowerExpr, op?_lowerUnary] at hop
    simp at hop
  | nonNull inner =>
    rw [op?_of_isOperand (isOperand_lowerExpr st ss _ he rfl)] at hop
    simp at hop
  | _ => simp [lowerExpr, Lua.Expr.op?] at hop

/-- An operand that is not grouped beside an operator binds tighter, or as tight on its near side. -/
theorem level_of_op?_groupIf {e : Expr} (he : e.WellFormed) {level : Nat} {far : Bool} {op' : BinOp}
    (hop : (groupIf (needsGroup st.dialect e level far) (lowerExpr st ss e)).op? = some op') :
    level < op'.level ∨ level = op'.level ∧ far = false := by
  cases hgroup : needsGroup st.dialect e level far with
  | true =>
    rw [hgroup] at hop
    simp [groupIf, Lua.Expr.op?] at hop
  | false =>
    rw [hgroup] at hop
    rw [needsGroup, loweredLevel_of_op? st ss he hop] at hgroup
    simp only [Bool.or_eq_false_iff, decide_eq_false_iff_not, Bool.and_eq_false_iff] at hgroup
    rcases Nat.lt_or_ge level op'.level with hlt | hge
    · exact .inl hlt
    · have heq : level = op'.level := by omega
      refine .inr ⟨heq, ?_⟩
      rcases hgroup.2 with hfar | hne
      · exact hfar
      · exact absurd heq.symm hne

theorem respectsLevels_groupIf {group : Bool} {e : Lua.Expr} (he : e.RespectsLevels) :
    (groupIf group e).RespectsLevels := by
  cases group <;> exact he

theorem op?_groupIf {group : Bool} {e : Lua.Expr} (he : e.op? = none) :
    (groupIf group e).op? = none := by
  cases group
  · exact he
  · rfl

theorem level_lt_unaryLevel (op : BinOp) : op.level < Lua.unaryLevel := by
  cases op <;> decide

theorem op?_groupIf_unaryLevel {e : Expr} (he : e.WellFormed) :
    (groupIf (needsGroup st.dialect e Lua.unaryLevel false) (lowerExpr st ss e)).op? = none := by
  cases hop : (groupIf (needsGroup st.dialect e Lua.unaryLevel false) (lowerExpr st ss e)).op? with
  | none => rfl
  | some op' =>
    have hlevel := level_lt_unaryLevel op'
    rcases level_of_op?_groupIf st ss he hop with hlt | ⟨heq, -⟩ <;> omega

/-- **The operators of a lowered expression stand where their levels allow it.** -/
theorem respectsLevels_lowerExpr : ∀ e : Expr, e.WellFormed →
    (lowerExpr st ss e).RespectsLevels
  | .paren inner _, he | .nonNull inner, he =>
    respectsLevels_lowerExpr inner (he.of_mem_parts (.head _))
  | .unary op operand _, he => by
    have hoperand : operand.WellFormed := he.of_mem_parts (.head _)
    have hlevels := respectsLevels_lowerExpr operand hoperand
    have hop := op?_groupIf_unaryLevel st ss hoperand
    cases op with
    | not => exact ⟨hop, respectsLevels_groupIf hlevels⟩
    -- Behind a minus sign an operand may be grouped a second time, which hides no operator.
    | neg => exact ⟨op?_groupIf hop, respectsLevels_groupIf (respectsLevels_groupIf hlevels)⟩
    | bitNot =>
      rw [lowerExpr, lowerUnary]
      split
      · trivial
      · exact ⟨hop, respectsLevels_groupIf hlevels⟩
  | .binary op lhs rhs, he => by
    obtain ⟨hlhs, hrhs⟩ := Script.wellFormed_binary.mp he
    rw [lowerExpr, lowerBinary]
    split
    · trivial
    · refine ⟨fun op' hop => level_of_op?_groupIf st ss hlhs hop, fun op' hop => ?_,
        respectsLevels_groupIf (respectsLevels_lowerExpr lhs hlhs),
        respectsLevels_groupIf (respectsLevels_lowerExpr rhs hrhs)⟩
      simpa using level_of_op?_groupIf st ss hrhs hop
  | .number _ _, _ | .string _ _, _ | .bool _ _, _ | .absent _, _ | .ident _, _
  | .array _ _, _ | .object _ _, _ | .call _ _ _, _ | .member _ _, _
  | .arrow _ _ _, _ | .closure _ _ _, _ => trivial

/-! ### Trees -/

theorem sign_binOp (op : BinaryOp) (lhs rhs : Expr) :
    (binOp op lhs rhs).sign = binarySign op lhs rhs := by
  cases op with
  | add =>
    rw [binOp, binarySign]
    cases isStringLiteral lhs || isStringLiteral rhs <;> rfl
  | _ => rfl

theorem text_bitCall? (d : Dialect) (op : BinaryOp) :
    (bitCall? d op).map (·.text) = (bitFunctionName? op).bind fun name =>
      (bitLibraryName? d).map fun library => library ++ "." ++ name := by
  cases d <;> cases op <;> rfl

variable (newLine : String) (depth : Nat)

theorem operators_groupIf (group : Bool) (e : Lua.Expr) :
    (groupIf group e).operators newLine depth = e.operators newLine depth := by
  cases group <;> rfl

theorem operators_lowerUnary (d : Dialect) (op : UnaryOp) (group : Bool) (e : Lua.Expr) :
    (lowerUnary d op group e).operators newLine depth =
      unaryTree d op (exprText newLine depth e) (e.operators newLine depth) := by
  cases op with
  | not => rw [lowerUnary, Lua.Expr.operators, operators_groupIf]; rfl
  | neg => rw [lowerUnary, negate, Lua.Expr.operators, operators_groupIf, operators_groupIf]; rfl
  | bitNot =>
    cases d with
    | lua51 | lua53 =>
      simp only [lowerUnary, bitLibrary?, Lua.Expr.operators, operators_groupIf]
      rfl
    | lua52 | luaJit =>
      simp only [lowerUnary, bitLibrary?, Lua.Expr.operators, unaryTree, bitLibraryName?, exprText,
        Lua.exprsText]
      rfl

theorem operators_lowerBinary (d : Dialect) (op : BinaryOp) (lhs rhs : Expr) (l r : Lua.Expr) :
    (lowerBinary d op lhs rhs l r).operators newLine depth =
      binaryTree d op (binarySign op lhs rhs) (exprText newLine depth l, exprText newLine depth r)
        (l.operators newLine depth) (r.operators newLine depth) := by
  have htext := text_bitCall? d op
  rw [lowerBinary]
  cases hcall : bitCall? d op with
  | some f =>
    rw [hcall, Option.map_some, eq_comm, Option.bind_eq_some_iff] at htext
    obtain ⟨name, hname, hlibrary⟩ := htext
    obtain ⟨library, hlibrary, hf⟩ := Option.map_eq_some_iff.mp hlibrary
    simp only [Lua.Expr.operators, binaryTree, hname, hlibrary, exprText, Lua.exprsText, ← hf,
      String.append_assoc]
  | none =>
    rw [hcall, Option.map_none, eq_comm, Option.bind_eq_none_iff] at htext
    simp only [Lua.Expr.operators, operators_groupIf, sign_binOp]
    unfold binaryTree
    split
    · rename_i name library hname hlibrary
      have hnone := htext name hname
      rw [hlibrary] at hnone
      simp at hnone
    · rfl

/-- The operators of a lowered expression are those of the expression. -/
theorem operators_lowerExpr : ∀ e : Expr,
    (lowerExpr st ss e).operators newLine depth =
      operatorTree st.dialect (fun x => exprText newLine depth (lowerExpr st ss x)) e
  | .paren inner _ | .nonNull inner => operators_lowerExpr inner
  | .unary op operand _ => by
    rw [lowerExpr, operators_lowerUnary, operators_lowerExpr operand]
    rfl
  | .binary op lhs rhs => by
    rw [lowerExpr, operators_lowerBinary, operators_lowerExpr lhs, operators_lowerExpr rhs]
    rfl
  | .number _ _ | .string _ _ | .bool _ _ | .absent _ | .ident _ | .array _ _ | .object _ _
  | .call _ _ _ | .member _ _ | .arrow _ _ _ | .closure _ _ _ => rfl

/-- **Lowering keeps the operators.** Of every expression that is read from a text, the operators that
are read off its Lua text are its own in their Lua form: no operand is regrouped. -/
theorem operators_kept_by_lowering {text : String} {body : List Stmt}
    (hread : Script.read text = .ok body) {s : Stmt} (hs : s ∈ body) {e : Expr}
    (he : (Phrase.expr e).Within (.stmt s)) (hline : IsLineEnd newLine) :
    Lua.operators? (exprText newLine depth (lowerExpr st ss e)) =
      some (operatorTree st.dialect (fun x => exprText newLine depth (lowerExpr st ss x)) e) := by
  have hwell : e.WellFormed := (Script.wellFormed_of_read hread s hs).of_within he
  rw [← operators_lowerExpr]
  exact Lua.Expr.operators?_exprText hline (printable_lowerExpr st ss e hwell)
    (respectsLevels_lowerExpr st ss e hwell)

/-- Lua 5.3 without any declared functions. -/
def bareSetting : Setting := ⟨.lua53, Globals.bind []⟩

/-- The Lua text of a script of one expression, with the operators of the expression. -/
def luaOf? (text : String) : Option (String × OperatorTree) :=
  match Script.read text with
  | .ok [.expr e] =>
    let lua := fun x => exprText "\n" 0 (lowerExpr bareSetting [] x)
    some (lua e, operatorTree .lua53 lua e)
  | _ => none

/-- A sum with a string literal, and a comparison below an operator on bits. -/
def mixedText : String := "-a + \"s\" + b | c == d;"

/-- The operators of `mixedText` in their Lua form. -/
def mixedTree : OperatorTree :=
  .binary "|"
    (.binary "+" (.binary ".." (.sign "-" (.leaf "a")) (.leaf "\"s\"")) (.leaf "b"))
    (.binary "==" (.leaf "c") (.leaf "d"))

theorem mixedText_operators_kept : ∃ e, Script.read mixedText = .ok [.expr e] ∧
    (Phrase.expr e).Within (.stmt (.expr e)) ∧ IsLineEnd "\n" ∧
    exprText "\n" 0 (lowerExpr bareSetting [] e) = "(-a .. \"s\") + b | (c == d)" ∧
    Lua.operators? (exprText "\n" 0 (lowerExpr bareSetting [] e)) = some mixedTree := by
  have hlua : luaOf? mixedText = some ("(-a .. \"s\") + b | (c == d)", mixedTree) := by
    decide +kernel
  unfold luaOf? at hlua
  split at hlua
  · rename_i e hread
    rw [Option.some.injEq, Prod.mk.injEq] at hlua
    obtain ⟨htext, htree⟩ := hlua
    have hwithin : (Phrase.expr e).Within (.stmt (.expr e)) := .part (.head _) .refl
    have hline : IsLineEnd "\n" := ⟨by decide, List.all_eq_true.mp (by decide)⟩
    have hoperators :=
      operators_kept_by_lowering bareSetting [] "\n" 0 hread (.head _) hwithin hline
    rw [htree.symm]
    exact ⟨e, hread, hwithin, hline, htext, hoperators⟩
  · simp at hlua

end LuaSnippet.Lowering
