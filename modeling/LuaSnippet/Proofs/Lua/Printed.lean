import LuaSnippet.Lua.Print
import LuaSnippet.Lowering.Operator
import LuaSnippet.Proofs.Lua.Group

/-!
# The groups of printed Lua

A Lua tree is printed as groups of tokens: brackets for what stands in brackets, and blocks for the
bodies of functions, conditionals and loops. Written out, these groups are the text of the tree
(`Expr.charsOf_groups`).
-/

namespace LuaSnippet.Lua

open Lowering (startsMinus)

/-! ### Groups of a tree -/

/-- A name, a keyword or a numeral. -/
def Group.word (s : String) : Group := .token (Token.word s.toList)

def Group.sign (s : String) : Group := .token (Token.sign s.toList)

def Group.space : Group := .token (Token.blank ' ')

def Group.parens (inside : List Group) : Group :=
  .bracket (Token.sign ['(']) inside (Token.sign [')'])

def Group.braces (inside : List Group) : Group :=
  .bracket (Token.sign ['\x7b']) inside (Token.sign ['\x7d'])

def Group.index (key : String) : Group :=
  .bracket (Token.sign ['[']) [.token (Token.text key)] (Token.sign [']'])

/-- What stands between a keyword and its end. -/
def Group.block (keyword : String) (inside : List Group) : Group :=
  .bracket (Token.word keyword.toList) inside (Token.word "end".toList)

def blanks (s : String) : List Group :=
  s.toList.map fun c => .token (Token.blank c)

def commaJoined : List (List Group) → List Group
  | [] => []
  | [gs] => gs
  | gs :: gs' :: rest => gs ++ [.sign ",", .space] ++ commaJoined (gs' :: rest)

def Param.groups : Param → List Group
  | .name n => [.word n]
  | .dots => [.sign "..."]

def paramsGroup (params : List Param) : Group :=
  .parens (commaJoined (params.map Param.groups))

def namesGroups (names : List String) : List Group :=
  commaJoined (names.map fun n => [.word n])

/-- The groups of the line that packs the further arguments of a function. -/
def packGroups (name : String) : List Group :=
  [.word "local", .space, .word name, .space, .sign "=", .space, .braces [.sign "..."]]

def Builtin.groups : Builtin → List Group
  | .unpack => [.word "unpack"]
  | .tableUnpack => [.word "table", .sign ".", .word "unpack"]
  | .ipairs => [.word "ipairs"]
  | .bit32 op => [.word "bit32", .sign ".", .word op.name]
  | .bit op => [.word "bit", .sign ".", .word op.name]
  | .loopValue => [.word "____value"]

/-- The groups of a unary operator, up to its operand. -/
def UnOp.groups : UnOp → List Group
  | .not => [.word "not", .space]
  | .neg => [.sign "-"]
  | .bnot => [.sign "~"]

def BinOp.group : BinOp → Group
  | .or => .word "or"
  | .and => .word "and"
  | op => .sign op.sign

/-- The numeral that an expression is printed as. A name of a member behind a numeral is taken for a
part of it. -/
def Expr.numeral? : Expr → Option String
  | .number text => some text
  | .member owner key => if isName key then owner.numeral?.map (· ++ "." ++ key) else none
  | _ => none

mutual

/-- The groups of an expression that starts at a depth. -/
def Expr.groups (newLine : String) (depth : Nat) : Expr → List Group
  | .number text => [.word text]
  | .string value => [.token (Token.text value)]
  | .bool true => [.word "true"]
  | .bool false => [.word "false"]
  | .nil => [.word "nil"]
  | .name n => [.word n]
  | .builtin b => b.groups
  | .dots => [.sign "..."]
  | .table fields => [.braces (commaJoined (fieldsGroups newLine depth fields))]
  | .call callee args =>
    callee.groups newLine depth ++ [.parens (commaJoined (exprsGroups newLine depth args))]
  | .member owner key =>
    match (Expr.member owner key).numeral? with
    | some text => [.word text]
    | none =>
      if isName key then owner.groups newLine depth ++ [.sign ".", .word key]
      else owner.groups newLine depth ++ [.index key]
  | .paren inner => [.parens (inner.groups newLine depth)]
  | .unary op operand => op.groups ++ operand.groups newLine depth
  | .binary op lhs rhs =>
    lhs.groups newLine depth ++ [.space, op.group, .space] ++ rhs.groups newLine depth
  | .lambda params none value =>
    [.block "function" ([paramsGroup params, .space, .word "return", .space] ++
      value.groups newLine depth ++ [.space])]
  | .lambda params (some name) value =>
    [.block "function" ([paramsGroup params, .space] ++ packGroups name ++
      [.sign ";", .space, .word "return", .space] ++ value.groups newLine depth ++ [.space])]
  | .function params body =>
    [.block "function" ([paramsGroup params] ++ blanks newLine ++
      stmtsGroups newLine (depth + 1) body ++ blanks (indent depth))]

def exprsGroups (newLine : String) (depth : Nat) : List Expr → List (List Group)
  | [] => []
  | e :: rest => e.groups newLine depth :: exprsGroups newLine depth rest

def Field.groups (newLine : String) (depth : Nat) : Field → List Group
  | .item value => value.groups newLine depth
  | .entry key value =>
    (if isName key then [.word key] else [.index key]) ++ [.space, .sign "=", .space] ++
      value.groups newLine depth

def fieldsGroups (newLine : String) (depth : Nat) : List Field → List (List Group)
  | [] => []
  | f :: rest => f.groups newLine depth :: fieldsGroups newLine depth rest

/-- The groups of a statement, up to the end of its last line. -/
def Stmt.groups (newLine : String) (depth : Nat) : Stmt → List Group
  | .declare names none => [.word "local", .space] ++ namesGroups names
  | .declare names (some value) =>
    [.word "local", .space] ++ namesGroups names ++ [.space, .sign "=", .space] ++
      value.groups newLine depth
  | .function name params body =>
    [.word "local", .space, .block "function" ([.space, .word name, paramsGroup params] ++
      blanks newLine ++ stmtsGroups newLine (depth + 1) body ++ blanks (indent depth))]
  | .assign target value =>
    target.groups newLine depth ++ [.space, .sign "=", .space] ++ value.groups newLine depth
  | .call value => value.groups newLine depth
  | .discard value =>
    [.word "local", .space, .word "____", .space, .sign "=", .space] ++ value.groups newLine depth
  | .result none => [.word "return"]
  | .result (some value) => [.word "return", .space] ++ value.groups newLine depth
  | .block body =>
    [.block "do" (blanks newLine ++ stmtsGroups newLine (depth + 1) body ++ blanks (indent depth))]
  | .cond test body rest =>
    [.block "if" ([.space] ++ test.groups newLine depth ++ [.space, .word "then"] ++
      blanks newLine ++ stmtsGroups newLine (depth + 1) body ++ rest.groups newLine depth)]
  | .forIn names iterator body =>
    [.word "for", .space] ++ namesGroups names ++ [.space, .word "in", .space] ++
      iterator.groups newLine depth ++ [.space, .block "do" (blanks newLine ++
        stmtsGroups newLine (depth + 1) body ++ blanks (indent depth))]

/-- The groups of a conditional behind a branch, up to its end. -/
def Else.groups (newLine : String) (depth : Nat) : Else → List Group
  | .done => blanks (indent depth)
  | .otherwise body =>
    blanks (indent depth) ++ [.word "else"] ++ blanks newLine ++
      stmtsGroups newLine (depth + 1) body ++ blanks (indent depth)
  | .elseIf test body rest =>
    blanks (indent depth) ++ [.word "elseif", .space] ++ test.groups newLine depth ++
      [.space, .word "then"] ++ blanks newLine ++ stmtsGroups newLine (depth + 1) body ++
      rest.groups newLine depth

/-- The groups of several statements, each on lines of its own. -/
def stmtsGroups (newLine : String) (depth : Nat) : List Stmt → List Group
  | [] => []
  | s :: rest =>
    blanks (indent depth) ++ s.groups newLine depth ++ blanks newLine ++
      stmtsGroups newLine depth rest

end

/-! ### The text of the groups -/

section

variable (gs : List Group)

theorem charsOf_token (t : Token) : charsOf (.token t :: gs) = t.chars ++ charsOf gs := rfl

theorem charsOf_bracket (o c : Token) (inside : List Group) :
    charsOf (.bracket o inside c :: gs) = o.chars ++ (charsOf inside ++ (c.chars ++ charsOf gs)) := by
  simp [charsOf, tokensOf, Group.tokens]

@[simp] theorem charsOf_nil : charsOf [] = [] := rfl

@[simp] theorem charsOf_word (s : String) : charsOf (.word s :: gs) = s.toList ++ charsOf gs := rfl

@[simp] theorem charsOf_sign (s : String) : charsOf (.sign s :: gs) = s.toList ++ charsOf gs := rfl

@[simp] theorem charsOf_space : charsOf (.space :: gs) = ' ' :: charsOf gs := rfl

@[simp] theorem charsOf_text (value : String) :
    charsOf (.token (Token.text value) :: gs) = (quote value).toList ++ charsOf gs := by
  rw [charsOf_token, quote, String.toList_ofList]
  rfl

@[simp] theorem charsOf_parens (inside : List Group) :
    charsOf (.parens inside :: gs) = '(' :: (charsOf inside ++ ')' :: charsOf gs) :=
  charsOf_bracket gs _ _ inside

@[simp] theorem charsOf_braces (inside : List Group) :
    charsOf (.braces inside :: gs) = '\x7b' :: (charsOf inside ++ '\x7d' :: charsOf gs) :=
  charsOf_bracket gs _ _ inside

@[simp] theorem charsOf_index (key : String) :
    charsOf (.index key :: gs) = '[' :: ((quote key).toList ++ ']' :: charsOf gs) := by
  rw [Group.index, charsOf_bracket, charsOf_text, charsOf_nil, List.append_nil]
  rfl

@[simp] theorem charsOf_block (keyword : String) (inside : List Group) :
    charsOf (.block keyword inside :: gs) =
      keyword.toList ++ (charsOf inside ++ ("end".toList ++ charsOf gs)) :=
  charsOf_bracket gs _ _ inside

@[simp] theorem charsOf_blanks (s : String) : charsOf (blanks s) = s.toList := by
  unfold blanks
  induction s.toList with
  | nil => rfl
  | cons c cs ih =>
    rw [List.map_cons, charsOf_token, ih]
    rfl

theorem charsOf_commaJoined {gss : List (List Group)} {texts : List String}
    (h : gss.map charsOf = texts.map (·.toList)) :
    charsOf (commaJoined gss) = (Text.join ", " texts).toList := by
  induction gss generalizing texts with
  | nil =>
    obtain rfl : texts = [] := by simpa using h.symm
    rfl
  | cons gs gss ih =>
    obtain ⟨text, texts, rfl⟩ : ∃ text rest, texts = text :: rest :=
      List.exists_cons_of_ne_nil (by rintro rfl; simp at h)
    rw [List.map_cons, List.map_cons, List.cons.injEq] at h
    cases gss with
    | nil =>
      obtain rfl : texts = [] := by simpa using h.2.symm
      exact h.1
    | cons gs' gss =>
      obtain ⟨text', texts, rfl⟩ : ∃ text rest, texts = text :: rest :=
        List.exists_cons_of_ne_nil (by rintro rfl; simp at h)
      rw [commaJoined, charsOf_append, charsOf_append, ih h.2, h.1]
      simp [Text.join]

@[simp] theorem charsOf_paramsGroup (params : List Param) :
    charsOf (paramsGroup params :: gs) =
      '(' :: ((paramsText params).toList ++ ')' :: charsOf gs) := by
  have htexts : (params.map Param.groups).map charsOf =
      (params.map fun | .name n => n | .dots => "...").map (·.toList) := by
    rw [List.map_map, List.map_map]
    refine List.map_congr_left fun p _ => ?_
    cases p <;> simp [Param.groups]
  rw [paramsGroup, charsOf_parens, charsOf_commaJoined htexts]
  rfl

@[simp] theorem charsOf_namesGroups (names : List String) :
    charsOf (namesGroups names) = (namesText names).toList := by
  refine charsOf_commaJoined ?_
  rw [List.map_map]
  refine List.map_congr_left fun n _ => ?_
  simp

@[simp] theorem charsOf_packGroups (name : String) :
    charsOf (packGroups name) = (packText name).toList := by
  simp [packGroups, packText]

@[simp] theorem Builtin.charsOf_groups (b : Builtin) : charsOf b.groups = b.text.toList := by
  cases b <;> simp [Builtin.groups, Builtin.text]

@[simp] theorem UnOp.charsOf_groups (op : UnOp) : charsOf op.groups = op.sign.toList := by
  cases op <;> rfl

@[simp] theorem BinOp.charsOf_group (op : BinOp) :
    charsOf (op.group :: gs) = op.sign.toList ++ charsOf gs := by
  cases op <;> rfl

theorem Expr.eq_of_numeral? (newLine : String) (depth : Nat) :
    ∀ {e : Expr} {text : String}, e.numeral? = some text → exprText newLine depth e = text
  | .number _, _, h => by
    rw [Expr.numeral?, Option.some.injEq] at h
    rw [exprText, h]
  | .member owner key, _, h => by
    rw [Expr.numeral?] at h
    split at h
    · rename_i hkey
      obtain ⟨start, hstart, rfl⟩ := Option.map_eq_some_iff.mp h
      rw [exprText, if_pos hkey, Expr.eq_of_numeral? newLine depth hstart]
    · simp at h

mutual

/-- **The groups of an expression are its text.** -/
theorem Expr.charsOf_groups (newLine : String) (depth : Nat) :
    ∀ e : Expr, charsOf (e.groups newLine depth) = (exprText newLine depth e).toList
  | .number text | .string value | .name n | .builtin b => by simp [Expr.groups, exprText]
  | .bool true | .bool false | .nil | .dots => by simp [Expr.groups, exprText]
  | .table fields => by
    have hfields := charsOf_fieldsGroups newLine depth fields
    simp [Expr.groups, exprText, hfields]
  | .call callee args => by
    have hcallee := callee.charsOf_groups newLine depth
    have hargs := charsOf_exprsGroups newLine depth args
    simp [Expr.groups, exprText, hcallee, hargs]
  | .member owner key => by
    have howner := owner.charsOf_groups newLine depth
    rw [Expr.groups]
    split
    · rename_i text htext
      rw [Expr.eq_of_numeral? newLine depth htext]
      simp
    · rw [exprText]
      split <;> simp [howner]
  | .paren inner => by
    have hinner := inner.charsOf_groups newLine depth
    simp [Expr.groups, exprText, hinner]
  | .unary op operand => by
    have hoperand := operand.charsOf_groups newLine depth
    simp [Expr.groups, exprText, hoperand]
  | .binary op lhs rhs => by
    have hlhs := lhs.charsOf_groups newLine depth
    have hrhs := rhs.charsOf_groups newLine depth
    simp [Expr.groups, exprText, hlhs, hrhs]
  | .lambda params none value | .lambda params (some name) value => by
    have hvalue := value.charsOf_groups newLine depth
    simp [Expr.groups, exprText, hvalue]
  | .function params body => by
    have hbody := charsOf_stmtsGroups newLine (depth + 1) body
    simp [Expr.groups, exprText, hbody]

theorem charsOf_exprsGroups (newLine : String) (depth : Nat) : ∀ es : List Expr,
    charsOf (commaJoined (exprsGroups newLine depth es)) = (exprsText newLine depth es).toList
  | [] => rfl
  | [e] => e.charsOf_groups newLine depth
  | e :: e' :: rest => by
    have he := e.charsOf_groups newLine depth
    have hrest := charsOf_exprsGroups newLine depth (e' :: rest)
    rw [exprsGroups] at hrest
    simp [exprsGroups, commaJoined, exprsText, he, hrest]

theorem Field.charsOf_groups (newLine : String) (depth : Nat) :
    ∀ f : Field, charsOf (f.groups newLine depth) = (fieldText newLine depth f).toList
  | .item value => value.charsOf_groups newLine depth
  | .entry key value => by
    have hvalue := value.charsOf_groups newLine depth
    rw [Field.groups, fieldText]
    split <;> simp [hvalue]

theorem charsOf_fieldsGroups (newLine : String) (depth : Nat) : ∀ fs : List Field,
    charsOf (commaJoined (fieldsGroups newLine depth fs)) = (fieldsText newLine depth fs).toList
  | [] => rfl
  | [f] => f.charsOf_groups newLine depth
  | f :: f' :: rest => by
    have hf := f.charsOf_groups newLine depth
    have hrest := charsOf_fieldsGroups newLine depth (f' :: rest)
    rw [fieldsGroups] at hrest
    simp [fieldsGroups, commaJoined, fieldsText, hf, hrest]

/-- The groups of a statement are its lines, without what the first starts and the last ends with. -/
theorem Stmt.charsOf_groups (newLine : String) (depth : Nat) : ∀ s : Stmt,
    (indent depth).toList ++ charsOf (s.groups newLine depth) ++ newLine.toList =
      (stmtText newLine depth s).toList
  | .declare names none | .result none => by simp [Stmt.groups, stmtText]
  | .declare names (some value) | .call value | .discard value | .result (some value) => by
    have hvalue := value.charsOf_groups newLine depth
    simp [Stmt.groups, stmtText, hvalue]
  | .assign target value => by
    have htarget := target.charsOf_groups newLine depth
    have hvalue := value.charsOf_groups newLine depth
    simp [Stmt.groups, stmtText, htarget, hvalue]
  | .function name params body | .block body => by
    have hbody := charsOf_stmtsGroups newLine (depth + 1) body
    simp [Stmt.groups, stmtText, hbody]
  | .cond test body rest => by
    have htest := test.charsOf_groups newLine depth
    have hbody := charsOf_stmtsGroups newLine (depth + 1) body
    have hrest := rest.charsOf_groups newLine depth
    simp [Stmt.groups, stmtText, htest, hbody, ← hrest]
  | .forIn names iterator body => by
    have hiterator := iterator.charsOf_groups newLine depth
    have hbody := charsOf_stmtsGroups newLine (depth + 1) body
    simp [Stmt.groups, stmtText, hiterator, hbody]

/-- The groups of a conditional behind a branch are its lines up to its end. -/
theorem Else.charsOf_groups (newLine : String) (depth : Nat) : ∀ r : Else,
    charsOf (r.groups newLine depth) ++ ("end".toList ++ newLine.toList) =
      (elseText newLine depth r).toList
  | .done => by simp [Else.groups, elseText]
  | .otherwise body => by
    have hbody := charsOf_stmtsGroups newLine (depth + 1) body
    simp [Else.groups, elseText, hbody]
  | .elseIf test body rest => by
    have htest := test.charsOf_groups newLine depth
    have hbody := charsOf_stmtsGroups newLine (depth + 1) body
    have hrest := rest.charsOf_groups newLine depth
    simp [Else.groups, elseText, htest, hbody, ← hrest]

theorem charsOf_stmtsGroups (newLine : String) (depth : Nat) : ∀ ss : List Stmt,
    charsOf (stmtsGroups newLine depth ss) = (stmtsText newLine depth ss).toList
  | [] => rfl
  | s :: rest => by
    have hs := s.charsOf_groups newLine depth
    have hrest := charsOf_stmtsGroups newLine depth rest
    simp [stmtsGroups, stmtsText, ← hs, hrest]

end

end

end LuaSnippet.Lua
