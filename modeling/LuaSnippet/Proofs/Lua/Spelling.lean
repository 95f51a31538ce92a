import LuaSnippet.Proofs.Lua.Printed

/-!
# Printed Lua is cut into its tokens again

A tree whose names are Lua names and whose numbers are numerals is printed so that no token runs
into the next one (`Expr.legible`). Two places need a look at what stands there: a sign before an
operand, since the text of the operand may start with a sign as well, and a member or an index behind
an operand, since a numeral goes on with a point.
-/

namespace LuaSnippet.Lua

open Lowering (startsMinus)

/-! ### Trees that can be printed -/

def IsNumeral (text : String) : Prop :=
  isNumeral text.toList = true ∧ (Token.word text.toList).Valid

/-- Whether a text ends a line: it is white space, and not empty. -/
def IsLineEnd (newLine : String) : Prop :=
  newLine.toList ≠ [] ∧ ∀ c ∈ newLine.toList, isBlank c = true

/-- Whether an expression is no operation that is written with an operator. -/
def Expr.isOperand : Expr → Bool
  | .unary _ _ | .binary _ _ _ => false
  | _ => true

/-- Whether an expression can start a statement, and stand before a call or a member: it is no
operation, and no literal that has to be grouped there. -/
def Expr.isHead : Expr → Bool
  | .unary _ _ | .binary _ _ _ | .string _ | .table _ | .lambda _ _ _ | .function _ _ => false
  | _ => true

theorem Expr.isOperand_of_isHead {e : Expr} (he : e.isHead = true) : e.isOperand = true := by
  cases e with
  | unary | binary => cases he
  | _ => rfl

/-- Whether a parameter has a name that Lua knows as one. -/
def Param.Printable : Param → Prop
  | .name n => isName n = true
  | .dots => True

mutual

/-- Whether an expression can be printed: its names are names and its numbers are numerals, what is
called or has members can stand there, and no two minus signs meet. -/
def Expr.Printable : Expr → Prop
  | .number text => IsNumeral text
  | .name n => isName n = true
  | .table fields => FieldsPrintable fields
  | .call callee args => callee.isHead = true ∧ callee.Printable ∧ ExprsPrintable args
  | .member owner _ => owner.isHead = true ∧ owner.Printable
  | .paren inner => inner.Printable
  | .unary op operand => (op = .neg → startsMinus operand = false) ∧ operand.Printable
  | .binary _ lhs rhs => lhs.Printable ∧ rhs.Printable
  | .lambda params packed value =>
    (∀ p ∈ params, p.Printable) ∧ (∀ n ∈ packed, isName n = true) ∧ value.Printable
  | .function params body => (∀ p ∈ params, p.Printable) ∧ StmtsPrintable body
  | .string _ | .bool _ | .nil | .builtin _ | .dots => True

def ExprsPrintable : List Expr → Prop
  | [] => True
  | e :: rest => e.Printable ∧ ExprsPrintable rest

def Field.Printable : Field → Prop
  | .item value => value.Printable
  | .entry _ value => value.Printable

def FieldsPrintable : List Field → Prop
  | [] => True
  | f :: rest => f.Printable ∧ FieldsPrintable rest

def Stmt.Printable : Stmt → Prop
  | .declare names none => ∀ n ∈ names, isName n = true
  | .declare names (some value) => (∀ n ∈ names, isName n = true) ∧ value.Printable
  | .function name params body =>
    isName name = true ∧ (∀ p ∈ params, p.Printable) ∧ StmtsPrintable body
  | .assign target value => (target.isHead = true ∧ target.Printable) ∧ value.Printable
  | .call value => value.isHead = true ∧ value.Printable
  | .discard value | .result (some value) => value.Printable
  | .result none => True
  | .block body => StmtsPrintable body
  | .cond test body rest => test.Printable ∧ StmtsPrintable body ∧ rest.Printable
  | .forIn names iterator body =>
    (∀ n ∈ names, isName n = true) ∧ iterator.Printable ∧ StmtsPrintable body

def Else.Printable : Else → Prop
  | .done => True
  | .otherwise body => StmtsPrintable body
  | .elseIf test body rest => test.Printable ∧ StmtsPrintable body ∧ rest.Printable

def StmtsPrintable : List Stmt → Prop
  | [] => True
  | s :: rest => s.Printable ∧ StmtsPrintable rest

end

/-! ### Legible groups -/

/-- Groups whose tokens are cut where they are put together. -/
def Legible (gs : List Group) : Prop := Token.Spelled (tokensOf gs)

/-- Whether a group stands apart from whatever is around it: white space, a comma, a semicolon, and
what stands in parentheses or braces. -/
def Group.IsSeparator : Group → Prop
  | .token t => t.IsSeparator
  | .bracket o _ c => o.IsSeparator ∧ c.IsSeparator

def Group.LegibleInside : Group → Prop
  | .token _ => True
  | .bracket _ inside _ => Legible inside

section

variable {g h : Group} {gs xs ys : List Group}

@[simp] theorem legible_nil : Legible [] := Token.spelled_nil

@[simp] theorem legible_append_separator (hg : g.IsSeparator) :
    Legible (xs ++ g :: ys) ↔ Legible xs ∧ g.LegibleInside ∧ Legible ys := by
  unfold Legible
  cases g with
  | token t =>
    have ht : t.IsSeparator := hg
    simp [tokensOf, Group.tokens, Token.spelled_append_separator ht, Group.LegibleInside]
  | bracket o inside c =>
    obtain ⟨ho, hc⟩ := hg
    simp [tokensOf, Group.tokens, Token.spelled_append_separator ho,
      Token.spelled_append_separator hc, Group.LegibleInside, Legible]

@[simp] theorem legible_separator_cons (hg : g.IsSeparator) :
    Legible (g :: ys) ↔ g.LegibleInside ∧ Legible ys := by
  have h : Legible ([] ++ g :: ys) ↔ _ := legible_append_separator hg
  simpa using h

@[simp] theorem legible_cons_separator (hg : g.IsSeparator) :
    Legible (h :: g :: ys) ↔ Legible [h] ∧ g.LegibleInside ∧ Legible ys := by
  rw [← List.singleton_append, legible_append_separator hg]

theorem legible_append_apart (hxs : Legible xs) (hys : Legible ys)
    (hapart : ∀ x ∈ (tokensOf xs).getLast?, ∀ y ∈ (tokensOf ys).head?, x.Apart y) :
    Legible (xs ++ ys) := by
  unfold Legible
  rw [tokensOf_append]
  exact Token.spelled_append_apart hxs hys hapart

theorem isSeparator_mark {c : Char} (hc : c ∈ Token.marks) : (Token.sign [c]).IsSeparator :=
  .inr ⟨c, hc, rfl⟩

@[simp] theorem isSeparator_space : Group.space.IsSeparator := .inl ⟨' ', rfl, rfl⟩

@[simp] theorem isSeparator_comma : (Group.sign ",").IsSeparator := isSeparator_mark (by decide)

@[simp] theorem isSeparator_semicolon : (Group.sign ";").IsSeparator :=
  isSeparator_mark (by decide)

@[simp] theorem isSeparator_parens : (Group.parens gs).IsSeparator :=
  ⟨isSeparator_mark (by decide), isSeparator_mark (by decide)⟩

@[simp] theorem isSeparator_braces : (Group.braces gs).IsSeparator :=
  ⟨isSeparator_mark (by decide), isSeparator_mark (by decide)⟩

@[simp] theorem legibleInside_token (t : Token) : (Group.token t).LegibleInside := trivial

@[simp] theorem legibleInside_space : Group.space.LegibleInside := trivial

@[simp] theorem legibleInside_sign (s : String) : (Group.sign s).LegibleInside := trivial

@[simp] theorem legibleInside_parens : (Group.parens gs).LegibleInside ↔ Legible gs := Iff.rfl

@[simp] theorem legibleInside_braces : (Group.braces gs).LegibleInside ↔ Legible gs := Iff.rfl

/-! ### Words, lists and blocks -/

def isWord (s : String) : Bool :=
  !s.toList.isEmpty && s.toList.all fun c => c.isAlphanum || c = '_'

theorem isWord_iff {s : String} : isWord s = true ↔
    s.toList ≠ [] ∧ ∀ c ∈ s.toList, c.isAlphanum = true ∨ c = '_' := by
  simp [isWord]

theorem isName_iff {s : String} : isName s = true ↔ s ∉ keywords ∧ ∃ c cs, s.toList = c :: cs ∧
    (c.isAlpha = true ∨ c = '_') ∧ ∀ d ∈ cs, d.isAlphanum = true ∨ d = '_' := by
  unfold isName
  cases s.toList with
  | nil => simp
  | cons c cs => simp [and_comm]

theorem isWord_of_isName {s : String} (hs : isName s = true) : isWord s = true := by
  obtain ⟨-, c, cs, hchars, hc, hcs⟩ := isName_iff.mp hs
  have hfirst : c.isAlphanum = true ∨ c = '_' :=
    hc.imp_left fun hc => by rw [Char.isAlphanum, hc, Bool.true_or]
  rw [isWord_iff, hchars]
  exact ⟨List.cons_ne_nil c cs, List.forall_mem_cons.mpr ⟨hfirst, hcs⟩⟩

@[simp] theorem legible_word {s : String} (hs : isWord s = true) : Legible [.word s] := by
  obtain ⟨hne, hall⟩ := isWord_iff.mp hs
  obtain ⟨c, cs, hchars⟩ := List.exists_cons_of_ne_nil hne
  rw [hchars] at hall
  obtain ⟨hc, hcs⟩ := List.forall_mem_cons.mp hall
  refine Token.spelled_singleton.mpr ?_
  rw [hchars]
  exact Token.valid_word hc hcs

def isSign (s : String) : Bool :=
  match s.toList with
  | [] => false
  | c :: cs =>
    (Token.sign s.toList).isWhole &&
      ((Token.begin? c).bind fun u => cs.foldlM Token.extend? u) = some (Token.sign s.toList)

theorem legible_sign {s : String} (hs : isSign s = true) : Legible [.sign s] := by
  refine Token.spelled_singleton.mpr ?_
  unfold isSign at hs
  cases hchars : s.toList with
  | nil => simp [hchars] at hs
  | cons c cs =>
    rw [hchars] at hs
    simp only [Bool.and_eq_true, decide_eq_true_eq, Option.bind_eq_some_iff] at hs
    obtain ⟨hwhole, u, hbegin, hextend⟩ := hs
    exact ⟨hwhole, c, cs, u, rfl, hbegin, hextend⟩

theorem BinOp.legible_group (op : BinOp) : Legible [op.group] := by
  cases op with
  | or | and => exact legible_word (by decide)
  | _ => exact legible_sign (by decide)

theorem legible_commaJoined {gss : List (List Group)} :
    Legible (commaJoined gss) ↔ ∀ gs ∈ gss, Legible gs := by
  induction gss with
  | nil => simp [commaJoined]
  | cons gs gss ih =>
    cases gss with
    | nil => simp [commaJoined]
    | cons gs' gss => simp [commaJoined, ih]

@[simp] theorem legible_block (keyword : String) :
    Legible [.block keyword gs] ↔ Legible (.word keyword :: (gs ++ [.word "end"])) := by
  simp [Legible, tokensOf, Group.tokens, Group.block, Group.word]

theorem isSeparator_blank {c : Char} (hc : isBlank c = true) :
    (Group.token (Token.blank c)).IsSeparator := .inl ⟨c, hc, rfl⟩

theorem legible_map_blank_append {cs : List Char} (hcs : ∀ c ∈ cs, isBlank c = true) :
    Legible (cs.map (fun c => .token (Token.blank c)) ++ ys) ↔ Legible ys := by
  induction cs with
  | nil => rfl
  | cons c cs ih =>
    obtain ⟨hc, hrest⟩ := List.forall_mem_cons.mp hcs
    simp [isSeparator_blank hc, ih hrest]

theorem isBlank_of_mem_indent (depth : Nat) : ∀ c ∈ (indent depth).toList, isBlank c = true := by
  induction depth with
  | zero => simp [indent]
  | succ depth ih =>
    intro c hc
    rw [indent, String.toList_append, List.mem_append] at hc
    rcases hc with hc | hc
    · have hspaces : ∀ d ∈ "    ".toList, isBlank d = true :=
        List.all_eq_true.mp (by decide)
      exact hspaces c hc
    · exact ih c hc

@[simp] theorem legible_indent_append (depth : Nat) :
    Legible (blanks (indent depth) ++ ys) ↔ Legible ys :=
  legible_map_blank_append (isBlank_of_mem_indent depth)

variable {newLine : String}

theorem IsLineEnd.legible_append (hline : IsLineEnd newLine) :
    Legible (xs ++ (blanks newLine ++ ys)) ↔ Legible xs ∧ Legible ys := by
  obtain ⟨hne, hall⟩ := hline
  unfold blanks
  cases hchars : newLine.toList with
  | nil => exact absurd hchars hne
  | cons c cs =>
    rw [hchars] at hall
    obtain ⟨hc, hrest⟩ := List.forall_mem_cons.mp hall
    simp [isSeparator_blank hc, legible_map_blank_append hrest]

theorem IsLineEnd.legible_blanks (hline : IsLineEnd newLine) :
    Legible (blanks newLine ++ ys) ↔ Legible ys :=
  legible_map_blank_append hline.2

theorem IsLineEnd.legible_cons (hline : IsLineEnd newLine) :
    Legible (h :: (blanks newLine ++ ys)) ↔ Legible [h] ∧ Legible ys := by
  rw [← List.singleton_append, hline.legible_append]

theorem legible_paramsGroup {params : List Param} (hparams : ∀ p ∈ params, p.Printable) :
    (paramsGroup params).IsSeparator ∧ (paramsGroup params).LegibleInside := by
  refine ⟨isSeparator_parens, legible_commaJoined.mpr ?_⟩
  intro gs hgs
  obtain ⟨p, hp, rfl⟩ := List.mem_map.mp hgs
  cases p with
  | name n => exact legible_word (isWord_of_isName (hparams _ hp))
  | dots => exact legible_sign (by decide)

theorem legible_namesGroups {names : List String} (hnames : ∀ n ∈ names, isName n = true) :
    Legible (namesGroups names) := by
  refine legible_commaJoined.mpr ?_
  intro gs hgs
  obtain ⟨n, hn, rfl⟩ := List.mem_map.mp hgs
  exact legible_word (isWord_of_isName (hnames n hn))

end

/-! ### What an expression starts and ends with -/

theorem IsNumeral.member {text key : String} (htext : IsNumeral text) (hkey : isName key = true) :
    IsNumeral (text ++ "." ++ key) := by
  obtain ⟨hnumeral, hvalid⟩ := htext
  obtain ⟨c, cs, hchars⟩ := List.exists_cons_of_ne_nil hvalid.chars_ne_nil
  have hchars' : text.toList = c :: cs := hchars
  obtain ⟨-, hword⟩ := isWord_iff.mp (isWord_of_isName hkey)
  have hlist : (text ++ "." ++ key).toList = text.toList ++ '.' :: key.toList := by simp
  have hgoes (cs : List Char) : isNumeral (text.toList ++ cs) = true := by
    rw [hchars'] at hnumeral ⊢
    exact hnumeral
  unfold IsNumeral
  rw [hlist]
  refine ⟨hgoes _, hvalid.word_append fun before d after heq => ?_⟩
  have hd : d = '.' ∨ d ∈ key.toList := by
    have hmem : d ∈ '.' :: key.toList := by rw [heq]; simp
    simpa using hmem
  rcases hd with rfl | hd
  · simp [goesOn, hgoes]
  · rcases hword d hd with hplain | hplain <;> simp [goesOn, hplain]

theorem Expr.isNumeral_of_numeral? : ∀ {e : Expr} {text : String}, e.Printable →
    e.numeral? = some text → IsNumeral text
  | .number _, _, he, h => by
    rw [Expr.numeral?, Option.some.injEq] at h
    exact h ▸ he
  | .member owner key, _, he, h => by
    rw [Expr.numeral?] at h
    split at h
    · rename_i hkey
      obtain ⟨start, hstart, rfl⟩ := Option.map_eq_some_iff.mp h
      exact (Expr.isNumeral_of_numeral? he.2 hstart).member hkey
    · simp at h

variable {newLine : String} {depth : Nat} {gs : List Group}

/-- Whether a text starts with no equals sign, and with no minus sign unless that is said. -/
def Starts (minus : Bool) (cs : List Char) : Prop :=
  ∀ c ∈ cs.head?, c ≠ '=' ∧ (c = '-' → minus = true)

theorem Starts.append {minus : Bool} {xs ys : List Char} (hxs : Starts minus xs)
    (hys : Starts minus ys) : Starts minus (xs ++ ys) := by
  cases xs with
  | nil => exact hys
  | cons x xs => exact hxs

theorem starts_of_isWord {minus : Bool} {s : String} (hs : isWord s = true) :
    Starts minus s.toList := by
  intro c hc
  have hword := (isWord_iff.mp hs).2 c (List.mem_of_head? hc)
  constructor
  · rintro rfl
    exact absurd hword (by decide)
  · rintro rfl
    exact absurd hword (by decide)

theorem IsNumeral.starts {minus : Bool} {text : String} (htext : IsNumeral text) :
    Starts minus text.toList := by
  obtain ⟨hnumeral, -⟩ := htext
  cases hchars : text.toList with
  | nil => simp [Starts]
  | cons c cs =>
    rw [hchars] at hnumeral
    intro d hd
    obtain rfl : c = d := by simpa using hd
    constructor
    · rintro rfl
      exact absurd hnumeral (by simp [isNumeral])
    · rintro rfl
      exact absurd hnumeral (by simp [isNumeral])

/-- The text of an expression starts with a minus sign only if its tree says so, and never with an
equals sign. -/
theorem Expr.starts_exprText : ∀ e : Expr, e.Printable →
    Starts (startsMinus e) (exprText newLine depth e).toList
  | .number text, he => IsNumeral.starts he
  | .name n, he => starts_of_isWord (isWord_of_isName he)
  | .builtin b, _ => by
    cases b <;> simp [exprText, Builtin.text, Starts]
  | .bool true, _ | .bool false, _ | .nil, _ | .dots, _ => by simp [exprText, Starts]
  | .string value, _ => by simp [exprText, quote, quoteChars, Starts]
  | .table _, _ | .paren _, _ => by simp [exprText, Starts]
  | .lambda _ none _, _ | .lambda _ (some _) _, _ | .function _ _, _ => by simp [exprText, Starts]
  | .call callee args, he => by
    have hcallee := callee.starts_exprText he.2.1
    simp only [exprText, String.toList_append, List.append_assoc]
    exact hcallee.append (by simp [Starts])
  | .member owner key, he => by
    have howner := owner.starts_exprText he.2
    rw [exprText]
    split
    all_goals
      simp only [String.toList_append, List.append_assoc]
      exact howner.append (by simp [Starts])
  | .binary op lhs rhs, he => by
    have hlhs := lhs.starts_exprText he.1
    simp only [exprText, String.toList_append, List.append_assoc]
    exact hlhs.append (by simp [Starts])
  | .unary op operand, _ => by
    cases op <;> simp [exprText, UnOp.sign, Starts, startsMinus]

theorem Expr.head?_tokens {e : Expr} (he : e.Printable) {t : Token}
    (ht : t ∈ (tokensOf (e.groups newLine depth)).head?) {c : Char} (hc : t.chars.head? = some c) :
    c ≠ '=' ∧ (c = '-' → startsMinus e = true) := by
  have hstarts : Starts (startsMinus e) (charsOf (e.groups newLine depth)) := by
    rw [e.charsOf_groups]
    exact e.starts_exprText he
  refine hstarts c ?_
  cases htokens : tokensOf (e.groups newLine depth) with
  | nil => simp [htokens] at ht
  | cons u us =>
    obtain rfl : u = t := by simpa [htokens] using ht
    rw [charsOf, htokens, List.flatMap_cons]
    cases hchars : u.chars with
    | nil => simp [hchars] at hc
    | cons d ds => simpa [hchars] using hc

/-- Whether an index or a member may stand behind a token. -/
def Token.EndsOperand (t : Token) : Prop :=
  t.extend? '[' = none ∧ t.extend? '.' = none

theorem extend?_word_bracket (cs : List Char) : (Token.word cs).extend? '[' = none := by
  simp [Token.extend?_word, goesOn]

theorem endsOperand_word {s : String} (hs : isNumeral s.toList = false) :
    (Token.word s.toList).EndsOperand :=
  ⟨extend?_word_bracket _, by simp [Token.extend?_word, goesOn, hs]⟩

theorem isAlpha_iff {c : Char} : c.isAlpha = true ↔
    (65 ≤ c.toNat ∧ c.toNat ≤ 90) ∨ (97 ≤ c.toNat ∧ c.toNat ≤ 122) := by
  have hdef : c.isAlpha = (decide (65 ≤ c.val ∧ c.val ≤ 90) ||
      decide (97 ≤ c.val) && decide (c.val ≤ 122)) := rfl
  rw [hdef]
  simp only [Bool.or_eq_true, Bool.and_eq_true, decide_eq_true_eq, UInt32.le_iff_toNat_le]
  rfl

theorem isDigit_iff {c : Char} : c.isDigit = true ↔ 48 ≤ c.toNat ∧ c.toNat ≤ 57 := by
  have hdef : c.isDigit = (decide (48 ≤ c.val) && decide (c.val ≤ 57)) := rfl
  rw [hdef]
  simp only [Bool.and_eq_true, decide_eq_true_eq, UInt32.le_iff_toNat_le]
  rfl

theorem isDigit_eq_false_of_isAlpha {c : Char} (hc : c.isAlpha = true) : c.isDigit = false := by
  by_contra hdigit
  rw [Bool.not_eq_false, isDigit_iff] at hdigit
  rw [isAlpha_iff] at hc
  omega

theorem exists_cons_of_isName {s : String} (hs : isName s = true) :
    ∃ c cs, s.toList = c :: cs ∧ c.isDigit = false ∧ c ≠ '.' := by
  obtain ⟨-, c, cs, hchars, hc, -⟩ := isName_iff.mp hs
  refine ⟨c, cs, hchars, ?_⟩
  rcases hc with hc | rfl
  · refine ⟨isDigit_eq_false_of_isAlpha hc, ?_⟩
    rintro rfl
    exact absurd hc (by decide)
  · decide

theorem endsOperand_word_of_isName {s : String} (hs : isName s = true) :
    (Token.word s.toList).EndsOperand := by
  obtain ⟨c, cs, hchars, hdigit, hpoint⟩ := exists_cons_of_isName hs
  refine endsOperand_word ?_
  rw [hchars]
  simp [isNumeral, hdigit, hpoint]

theorem getLast?_tokensOf_token (gs : List Group) (t : Token) :
    (tokensOf (gs ++ [.token t])).getLast? = some t := by
  simp [tokensOf, Group.tokens]

theorem getLast?_tokensOf_bracket (gs inside : List Group) (o c : Token) :
    (tokensOf (gs ++ [.bracket o inside c])).getLast? = some c := by
  simp [tokensOf, Group.tokens, List.getLast?_append, List.getLast?_cons]

/-- What an operand ends with goes on neither with an index nor, unless it is a numeral, with a
point. -/
theorem Expr.getLast?_tokens : ∀ e : Expr, e.Printable → e.isOperand = true → ∃ t,
    (tokensOf (e.groups newLine depth)).getLast? = some t ∧
    t.extend? '[' = none ∧ (e.numeral? = none → t.extend? '.' = none)
  | .number text, _, _ =>
    ⟨_, getLast?_tokensOf_token [] _, extend?_word_bracket _, by simp [Expr.numeral?]⟩
  | .name n, he, _ => by
    obtain ⟨hindex, hpoint⟩ := endsOperand_word_of_isName (s := n) he
    exact ⟨_, getLast?_tokensOf_token [] _, hindex, fun _ => hpoint⟩
  | .builtin b, _, _ => by
    have hname (s : String) (hs : isName s = true) (gs : List Group) :
        ∃ t, (tokensOf (gs ++ [.word s])).getLast? = some t ∧ t.EndsOperand :=
      ⟨_, getLast?_tokensOf_token gs _, endsOperand_word_of_isName hs⟩
    obtain ⟨t, ht, hindex, hpoint⟩ : ∃ t,
        (tokensOf b.groups).getLast? = some t ∧ t.EndsOperand := by
      cases b with
      | unpack => exact hname "unpack" (by decide) []
      | tableUnpack => exact hname "unpack" (by decide) [.word "table", .sign "."]
      | ipairs => exact hname "ipairs" (by decide) []
      | bit32 op => exact hname op.name (by cases op <;> decide) [.word "bit32", .sign "."]
      | bit op => exact hname op.name (by cases op <;> decide) [.word "bit", .sign "."]
      | loopValue => exact hname "____value" (by decide) []
    exact ⟨t, ht, hindex, fun _ => hpoint⟩
  | .bool true, _, _ | .bool false, _, _ | .nil, _, _ | .dots, _, _ => by
    exact ⟨_, getLast?_tokensOf_token [] _, by decide, fun _ => by decide⟩
  | .string value, _, _ => by
    exact ⟨_, getLast?_tokensOf_token [] _, rfl, fun _ => rfl⟩
  | .table _, _, _ | .paren _, _, _
  | .lambda _ none _, _, _ | .lambda _ (some _) _, _, _
  | .function _ _, _, _ => by
    exact ⟨_, getLast?_tokensOf_bracket [] _ _ _, by decide, fun _ => by decide⟩
  | .call callee args, _, _ => by
    exact ⟨_, getLast?_tokensOf_bracket _ _ _ _, by decide, fun _ => by decide⟩
  | .member owner key, _, _ => by
    rw [Expr.groups]
    split
    · rename_i text htext
      exact ⟨_, getLast?_tokensOf_token [] _, extend?_word_bracket _, by simp [htext]⟩
    · split
      · rename_i hkey
        obtain ⟨hindex, hpoint⟩ := endsOperand_word_of_isName hkey
        rw [List.append_cons]
        exact ⟨_, getLast?_tokensOf_token _ _, hindex, fun _ => hpoint⟩
      · exact ⟨_, getLast?_tokensOf_bracket _ _ _ _, by decide, fun _ => by decide⟩

/-! ### Printed trees are legible -/

theorem extend?_sign_of_notMem {d c : Char} (hd : d ≠ '.') (h : [d, c] ∉ signs) :
    (Token.sign [d]).extend? c = none := by
  rw [Token.extend?_sign, if_neg (fun hpoint => hd (by simpa using hpoint.1))]
  exact if_neg h

theorem UnOp.legible_groups {op : UnOp} {e : Expr} (he : e.Printable)
    (hlegible : Legible (e.groups newLine depth)) (hminus : op = .neg → startsMinus e = false) :
    Legible (op.groups ++ e.groups newLine depth) := by
  cases op with
  | not => simp +decide [UnOp.groups, hlegible]
  | neg =>
    refine legible_append_apart (legible_sign (by decide)) hlegible fun x hx y hy c hc => ?_
    obtain rfl : Token.sign ['-'] = x := Option.some.inj hx
    have hne : c ≠ '-' := by
      intro heq
      have htrue := (Expr.head?_tokens he hy hc).2 heq
      rw [hminus rfl] at htrue
      exact absurd htrue (by simp)
    exact extend?_sign_of_notMem (by decide) (by simpa [signs] using hne)
  | bnot =>
    refine legible_append_apart (legible_sign (by decide)) hlegible fun x hx y hy c hc => ?_
    obtain rfl : Token.sign ['~'] = x := Option.some.inj hx
    have hne : c ≠ '=' := (Expr.head?_tokens he hy hc).1
    exact extend?_sign_of_notMem (by decide) (by simpa [signs] using hne)

theorem legible_append_member (hgs : Legible gs)
    (hlast : ∀ t ∈ (tokensOf gs).getLast?, t.extend? '.' = none) {key : String}
    (hkey : isName key = true) : Legible (gs ++ [.sign ".", .word key]) := by
  have hpoint : Legible ([.sign "."] ++ [.word key]) := by
    refine legible_append_apart (legible_sign (by decide))
      (legible_word (isWord_of_isName hkey)) fun x hx y hy c hc => ?_
    obtain rfl : Token.sign ['.'] = x := Option.some.inj hx
    obtain rfl : Token.word key.toList = y := Option.some.inj hy
    obtain ⟨d, ds, hchars, hdigit, hd⟩ := exists_cons_of_isName hkey
    obtain rfl : d = c := by simpa [Token.word, hchars] using hc
    rw [Token.extend?_sign, if_neg (by simp [hdigit]), if_neg]
    simpa [signs] using hd
  refine legible_append_apart hgs hpoint fun x hx y hy c hc => ?_
  obtain rfl : Token.sign ['.'] = y := Option.some.inj hy
  obtain rfl : '.' = c := Option.some.inj hc
  exact hlast x hx

theorem legible_index (key : String) : Legible [.index key] := by
  have hquote : (Token.sign ['[']).Apart (Token.text key) := by
    intro c hc
    obtain rfl : '"' = c := Option.some.inj hc
    decide
  have hclosed : (Token.text key).Apart (Token.sign [']']) := fun _ _ => rfl
  refine ⟨fun t ht => ?_, .cons_cons hquote (.cons_cons hclosed (.singleton _))⟩
  have hcases : t = Token.sign ['['] ∨ t = Token.text key ∨ t = Token.sign [']'] := by
    simpa [tokensOf, Group.tokens, Group.index] using ht
  rcases hcases with rfl | rfl | rfl
  · exact Token.spelled_singleton.mp (legible_sign (s := "[") (by decide))
  · exact Token.valid_text key
  · exact Token.spelled_singleton.mp (legible_sign (s := "]") (by decide))

theorem legible_append_index (hgs : Legible gs)
    (hlast : ∀ t ∈ (tokensOf gs).getLast?, t.extend? '[' = none) (key : String) :
    Legible (gs ++ [.index key]) := by
  refine legible_append_apart hgs (legible_index key) fun x hx y hy c hc => ?_
  obtain rfl : Token.sign ['['] = y := Option.some.inj hy
  obtain rfl : '[' = c := Option.some.inj hc
  exact hlast x hx

theorem Builtin.legible_groups (b : Builtin) : Legible b.groups := by
  have hmember (s key : String) (hs : isName s = true) (hkey : isName key = true) :
      Legible [.word s, .sign ".", .word key] := by
    refine legible_append_member (legible_word (isWord_of_isName hs)) (fun t ht => ?_) hkey
    obtain rfl : Token.word s.toList = t := Option.some.inj ht
    exact (endsOperand_word_of_isName hs).2
  cases b with
  | tableUnpack => exact hmember "table" "unpack" (by decide) (by decide)
  | bit32 op => exact hmember "bit32" op.name (by decide) (by cases op <;> decide)
  | bit op => exact hmember "bit" op.name (by decide) (by cases op <;> decide)
  | _ => exact legible_word (by decide)

theorem legible_packGroups {name : String} (hname : isName name = true) :
    Legible (packGroups name) := by
  have hdots : Legible [.sign "..."] := legible_sign (by decide)
  have hequals : Legible [.sign "="] := legible_sign (by decide)
  simp +decide [packGroups, isWord_of_isName hname, hdots, hequals]

mutual

/-- The tokens of a printed expression are cut where they were put together. -/
theorem Expr.legible (hline : IsLineEnd newLine) (depth : Nat) :
    ∀ e : Expr, e.Printable → Legible (e.groups newLine depth)
  | .number _, he => Token.spelled_singleton.mpr he.2
  | .string value, _ => Token.spelled_singleton.mpr (Token.valid_text value)
  | .bool true, _ | .bool false, _ | .nil, _ => legible_word (by decide)
  | .name _, he => legible_word (isWord_of_isName he)
  | .builtin b, _ => b.legible_groups
  | .dots, _ => legible_sign (by decide)
  | .table fields, he => by
    have hfields := legible_fieldsGroups hline depth fields he
    simp [Expr.groups, hfields]
  | .call callee args, he => by
    have hcallee := callee.legible hline depth he.2.1
    have hargs := legible_exprsGroups hline depth args he.2.2
    simp [Expr.groups, hcallee, hargs]
  | .member owner key, he => by
    have howner := owner.legible hline depth he.2
    rw [Expr.groups]
    split
    · rename_i text htext
      exact Token.spelled_singleton.mpr (Expr.isNumeral_of_numeral? he htext).2
    · rename_i hnone
      split
      · rename_i hkey
        rw [Expr.numeral?, if_pos hkey, Option.map_eq_none_iff] at hnone
        obtain ⟨t, ht, -, hpoint⟩ := owner.getLast?_tokens he.2 (Expr.isOperand_of_isHead he.1)
        refine legible_append_member howner (fun x hx => ?_) hkey
        obtain rfl : t = x := Option.some.inj (ht.symm.trans hx)
        exact hpoint hnone
      · obtain ⟨t, ht, hindex, -⟩ := owner.getLast?_tokens he.2 (Expr.isOperand_of_isHead he.1)
        refine legible_append_index howner (fun x hx => ?_) key
        obtain rfl : t = x := Option.some.inj (ht.symm.trans hx)
        exact hindex
  | .paren inner, he => by
    have hinner := inner.legible hline depth he
    simp [Expr.groups, hinner]
  | .unary op operand, he =>
    UnOp.legible_groups he.2 (operand.legible hline depth he.2) he.1
  | .binary op lhs rhs, he => by
    have hlhs := lhs.legible hline depth he.1
    have hrhs := rhs.legible hline depth he.2
    simp [Expr.groups, hlhs, hrhs, op.legible_group]
  | .lambda params none value, he => by
    obtain ⟨hparams, hinside⟩ := legible_paramsGroup he.1
    have hvalue := value.legible hline depth he.2.2
    simp +decide [Expr.groups, hparams, hinside, hvalue]
  | .lambda params (some name) value, he => by
    obtain ⟨hparams, hinside⟩ := legible_paramsGroup he.1
    have hpack := legible_packGroups (he.2.1 name rfl)
    have hvalue := value.legible hline depth he.2.2
    simp +decide [Expr.groups, hparams, hinside, hpack, hvalue]
  | .function params body, he => by
    obtain ⟨hparams, hinside⟩ := legible_paramsGroup he.1
    have hbody := legible_stmtsGroups_append hline (depth + 1) body he.2
    simp +decide [Expr.groups, hparams, hinside, hline.legible_blanks, hbody]

theorem legible_exprsGroups (hline : IsLineEnd newLine) (depth : Nat) : ∀ es : List Expr,
    ExprsPrintable es → Legible (commaJoined (exprsGroups newLine depth es))
  | [], _ => legible_nil
  | [e], hes => e.legible hline depth hes.1
  | e :: e' :: rest, hes => by
    have he := e.legible hline depth hes.1
    have hrest := legible_exprsGroups hline depth (e' :: rest) hes.2
    rw [exprsGroups] at hrest
    simp [exprsGroups, commaJoined, he, hrest]

theorem Field.legible (hline : IsLineEnd newLine) (depth : Nat) :
    ∀ f : Field, f.Printable → Legible (f.groups newLine depth)
  | .item value, hf => value.legible hline depth hf
  | .entry key value, hf => by
    have hvalue := value.legible hline depth hf
    have hequals : Legible [.sign "="] := legible_sign (by decide)
    rw [Field.groups]
    split
    · rename_i hkey
      simp [hvalue, hequals, isWord_of_isName hkey]
    · simp [hvalue, hequals, legible_index]

theorem legible_fieldsGroups (hline : IsLineEnd newLine) (depth : Nat) : ∀ fs : List Field,
    FieldsPrintable fs → Legible (commaJoined (fieldsGroups newLine depth fs))
  | [], _ => legible_nil
  | [f], hfs => f.legible hline depth hfs.1
  | f :: f' :: rest, hfs => by
    have hf := f.legible hline depth hfs.1
    have hrest := legible_fieldsGroups hline depth (f' :: rest) hfs.2
    rw [fieldsGroups] at hrest
    simp [fieldsGroups, commaJoined, hf, hrest]

theorem Stmt.legible (hline : IsLineEnd newLine) (depth : Nat) :
    ∀ s : Stmt, s.Printable → Legible (s.groups newLine depth)
  | .declare names none, hs => by
    have hnames := legible_namesGroups hs
    simp +decide [Stmt.groups, hnames]
  | .declare names (some value), hs => by
    have hnames := legible_namesGroups hs.1
    have hvalue := value.legible hline depth hs.2
    simp +decide [Stmt.groups, hnames, hvalue, legible_sign]
  | .function name params body, hs => by
    obtain ⟨hparams, hinside⟩ := legible_paramsGroup hs.2.1
    have hname := isWord_of_isName hs.1
    have hbody := legible_stmtsGroups_append hline (depth + 1) body hs.2.2
    simp +decide [Stmt.groups, hparams, hinside, hname, hline.legible_blanks,
      hbody]
  | .assign target value, hs => by
    have htarget := target.legible hline depth hs.1.2
    have hvalue := value.legible hline depth hs.2
    simp +decide [Stmt.groups, htarget, hvalue, legible_sign]
  | .call value, hs => value.legible hline depth hs.2
  | .discard value, hs => by
    have hvalue := value.legible hline depth hs
    simp +decide [Stmt.groups, hvalue, legible_sign]
  | .result none, _ => legible_word (by decide)
  | .result (some value), hs => by
    have hvalue := value.legible hline depth hs
    simp +decide [Stmt.groups, hvalue]
  | .block body, hs => by
    have hbody := legible_stmtsGroups_append hline (depth + 1) body hs
    simp +decide [Stmt.groups, hline.legible_cons, hbody]
  | .cond test body rest, hs => by
    have htest := test.legible hline depth hs.1
    have hbody := legible_stmtsGroups_append hline (depth + 1) body hs.2.1
    have hrest := rest.legible_append hline depth hs.2.2
    simp +decide [Stmt.groups, hline.legible_cons, htest, hbody, hrest]
  | .forIn names iterator body, hs => by
    have hnames := legible_namesGroups hs.1
    have hiterator := iterator.legible hline depth hs.2.1
    have hbody := legible_stmtsGroups_append hline (depth + 1) body hs.2.2
    simp +decide [Stmt.groups, hline.legible_cons, hnames, hiterator, hbody]

theorem Else.legible_append (hline : IsLineEnd newLine) (depth : Nat) : ∀ r : Else, r.Printable →
    ∀ ys, (Legible (r.groups newLine depth ++ ys) ↔ Legible ys)
  | .done, _, ys => by simp [Else.groups]
  | .otherwise body, hr, ys => by
    have hbody := legible_stmtsGroups_append hline (depth + 1) body hr
    simp +decide [Else.groups, hline.legible_cons, hbody]
  | .elseIf test body rest, hr, ys => by
    have htest := test.legible hline depth hr.1
    have hbody := legible_stmtsGroups_append hline (depth + 1) body hr.2.1
    have hrest := rest.legible_append hline depth hr.2.2
    simp +decide [Else.groups, hline.legible_cons, htest, hbody, hrest]

theorem legible_stmtsGroups_append (hline : IsLineEnd newLine) (depth : Nat) :
    ∀ ss : List Stmt, StmtsPrintable ss →
      ∀ ys, (Legible (stmtsGroups newLine depth ss ++ ys) ↔ Legible ys)
  | [], _, _ => Iff.rfl
  | s :: rest, hss, ys => by
    have hs := s.legible hline depth hss.1
    have hrest := legible_stmtsGroups_append hline depth rest hss.2
    simp [stmtsGroups, hline.legible_append, hs, hrest]

end

end LuaSnippet.Lua
