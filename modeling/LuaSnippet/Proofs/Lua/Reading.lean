import LuaSnippet.Proofs.Lua.Operators
import LuaSnippet.Proofs.Lua.Balance

/-!
# Reading the operators of printed Lua

The groups of a printed expression form a line of operators and operands, and the tree of the
expression is the grouped tree with this line, if its operators stand where their levels allow it. So
the operators read off the text are those of the tree (`Expr.operators?_exprText`).
-/

namespace LuaSnippet.Lua

/-! ### Operands -/

/-- A group with the operators within, as a part of a line. -/
def Group.part (g : Group) : Part := ⟨g, g.inner?⟩

/-- The tree of an operand: its first group with the others behind it. -/
def operandTree : List Group → PartTree
  | [] => .leaf ⟨.space, none⟩
  | g :: gs => gs.foldl (fun t g => .suffix t g.part) (.leaf g.part)

/-- Whether some groups go on with an operand, whatever stands behind them. -/
def Continues (gs : List Group) : Prop :=
  (∀ g ∈ gs, g.isBlank = false) ∧ ∀ rest, lineOf .behind (gs.map (·.part) ++ rest) =
    (lineOf .behind rest).map (gs.map (fun g => .suffix g.part) ++ ·)

def StandsAsOperand (gs : List Group) : Prop :=
  ∃ g rest, gs = g :: rest ∧ g.isBlank = false ∧ g.part.before? = none ∧
    g.part.startsOperand = true ∧ Continues rest

@[simp] theorem partsOf_append (gs hs : List Group) :
    partsOf (gs ++ hs) = partsOf gs ++ partsOf hs := by
  induction gs with
  | nil => rfl
  | cons g gs ih =>
    rw [List.cons_append, partsOf, partsOf, ih]
    split <;> rfl

@[simp] theorem partsOf_space (gs : List Group) : partsOf (.space :: gs) = partsOf gs := rfl

theorem partsOf_cons {g : Group} (hg : g.isBlank = false) (gs : List Group) :
    partsOf (g :: gs) = g.part :: partsOf gs := by
  rw [partsOf, hg]
  rfl

theorem partsOf_eq_map {gs : List Group} (hgs : ∀ g ∈ gs, g.isBlank = false) :
    partsOf gs = gs.map (·.part) := by
  induction gs with
  | nil => rfl
  | cons g gs ih =>
    obtain ⟨hg, hrest⟩ := List.forall_mem_cons.mp hgs
    rw [partsOf_cons hg, ih hrest, List.map_cons]

theorem continues_nil : Continues [] := ⟨by simp, fun rest => by simp⟩

theorem Continues.append {gs hs : List Group} (hgs : Continues gs) (hhs : Continues hs) :
    Continues (gs ++ hs) := by
  refine ⟨fun g hg => ?_, fun rest => ?_⟩
  · rcases List.mem_append.mp hg with hg | hg
    · exact hgs.1 g hg
    · exact hhs.1 g hg
  · rw [List.map_append, List.append_assoc, hgs.2, hhs.2, Option.map_map]
    congr 1
    funext line
    simp

theorem continues_bracket {o c : Token} {inside : List Group}
    (ho : o = Token.sign ['('] ∨ o = Token.sign ['[']) : Continues [.bracket o inside c] := by
  refine ⟨by simp [Group.isBlank], fun rest => ?_⟩
  have hcontinues : (Group.bracket o inside c).part.continuesOperand = true := by
    rcases ho with rfl | rfl <;> rfl
  rw [List.map_singleton, List.singleton_append, lineOf]
  simp only [Part.between?, Part.sign?, Part.isPoint, Group.part] at hcontinues ⊢
  simp [hcontinues]

theorem part_isPlainWord {s : String} (hs : s ∉ keywords) :
    (Group.word s).part.isPlainWord = true := by
  simp [Part.isPlainWord, Group.part, Group.word, Token.word, hs]

theorem continues_member {key : String} (hkey : isName key = true) :
    Continues [.sign ".", .word key] := by
  have hword := part_isPlainWord (isName_iff.mp hkey).1
  have hbetween : (Group.sign ".").part.between? = none := by decide
  have hpoint : (Group.sign ".").part.isPoint = true := by decide
  refine ⟨by simp [Group.isBlank, Group.sign, Group.word, Token.sign, Token.word], fun rest => ?_⟩
  rw [List.map_cons, List.map_singleton, List.cons_append, lineOf, hbetween]
  simp [hpoint, lineOf, hword, Function.comp_def]

theorem StandsAsOperand.append {gs hs : List Group} (hgs : StandsAsOperand gs)
    (hhs : Continues hs) : StandsAsOperand (gs ++ hs) := by
  obtain ⟨g, rest, rfl, hblank, hbefore, hstarts, hrest⟩ := hgs
  exact ⟨g, rest ++ hs, rfl, hblank, hbefore, hstarts, hrest.append hhs⟩

theorem standsAsOperand_singleton {g : Group} (hblank : g.isBlank = false)
    (hbefore : g.part.before? = none) (hstarts : g.part.startsOperand = true) :
    StandsAsOperand [g] :=
  ⟨g, [], rfl, hblank, hbefore, hstarts, continues_nil⟩

theorem standsAsOperand_bracket {o c : Token} {inside : List Group}
    (ho : o = Token.sign ['('] ∨ o = Token.sign ['\x7b'] ∨ o = Token.word "function".toList) :
    StandsAsOperand [.bracket o inside c] := by
  refine standsAsOperand_singleton rfl rfl ?_
  rcases ho with rfl | rfl | rfl <;> rfl

theorem standsAsOperand_word {s : String} (hs : s ∉ keywords ++ operandSigns) :
    StandsAsOperand [.word s] := by
  rw [List.mem_append, not_or] at hs
  refine standsAsOperand_singleton rfl ?_ ?_
  · simp [Part.before?, Part.sign?, Group.part, Group.word, Token.word, hs.2]
  · have hword := part_isPlainWord hs.1
    unfold Part.startsOperand
    simp only [Group.part, Group.word] at hword ⊢
    rw [hword, Bool.true_or, Bool.true_or, Bool.true_or]

theorem standsAsOperand_of_isName {s : String} (hs : isName s = true) :
    StandsAsOperand [.word s] := by
  have hnames : ∀ w ∈ keywords ++ operandSigns, isName w = false := by decide
  refine standsAsOperand_word fun hmem => ?_
  have hfalse := hnames s hmem
  rw [hs] at hfalse
  exact absurd hfalse (by simp)

theorem IsNumeral.standsAsOperand {text : String} (htext : IsNumeral text) :
    StandsAsOperand [.word text] := by
  have hnumerals : ∀ w ∈ keywords ++ operandSigns, isNumeral w.toList = false := by decide
  refine standsAsOperand_word fun hmem => ?_
  have hfalse := hnumerals text hmem
  rw [htext.1] at hfalse
  exact absurd hfalse (by simp)

theorem Builtin.standsAsOperand (b : Builtin) : StandsAsOperand b.groups := by
  have hmember (s key : String) (hs : isName s = true) (hkey : isName key = true) :
      StandsAsOperand [.word s, .sign ".", .word key] :=
    (standsAsOperand_of_isName hs).append (continues_member hkey)
  cases b with
  | tableUnpack => exact hmember "table" "unpack" (by decide) (by decide)
  | bit32 op => exact hmember "bit32" op.name (by decide) (by cases op <;> decide)
  | bit op => exact hmember "bit" op.name (by decide) (by cases op <;> decide)
  | _ => exact standsAsOperand_of_isName (by decide)

variable {newLine : String} {depth : Nat}

theorem Expr.standsAsOperand (newLine : String) (depth : Nat) : ∀ e : Expr, e.Printable →
    e.isOperand = true → StandsAsOperand (e.groups newLine depth)
  | .number _, he, _ => IsNumeral.standsAsOperand he
  | .name _, he, _ => standsAsOperand_of_isName he
  | .builtin b, _, _ => b.standsAsOperand
  | .bool true, _, _ | .bool false, _, _ | .nil, _, _ | .dots, _, _ =>
    standsAsOperand_singleton rfl (by decide) (by decide)
  | .string _, _, _ => standsAsOperand_singleton rfl rfl rfl
  | .table _, _, _ => standsAsOperand_bracket (.inr (.inl rfl))
  | .paren _, _, _ => standsAsOperand_bracket (.inl rfl)
  | .lambda _ none _, _, _ | .lambda _ (some _) _, _, _ | .function _ _, _, _ =>
    standsAsOperand_bracket (.inr (.inr rfl))
  | .call callee args, he, _ =>
    (callee.standsAsOperand newLine depth he.2.1 (Expr.isOperand_of_isHead he.1)).append (continues_bracket (.inl rfl))
  | .member owner key, he, _ => by
    have howner := owner.standsAsOperand newLine depth he.2 (Expr.isOperand_of_isHead he.1)
    rw [Expr.groups]
    split
    · rename_i text htext
      exact (Expr.isNumeral_of_numeral? he htext).standsAsOperand
    · split
      · rename_i hkey
        exact howner.append (continues_member hkey)
      · exact howner.append (continues_bracket (.inr rfl))

/-! ### The line of an expression -/

/-- A unary operator as it is written. -/
def UnOp.word : UnOp → String
  | .not => "not"
  | .neg => "-"
  | .bnot => "~"

/-- The tree of operators of an expression, with its operands in parts. -/
def Expr.tree (newLine : String) (depth : Nat) : Expr → PartTree
  | .unary op operand => .sign op.word (operand.tree newLine depth)
  | .binary op lhs rhs => .binary op.sign (lhs.tree newLine depth) (rhs.tree newLine depth)
  | e => operandTree (e.groups newLine depth)

theorem foldl_suffix_items (t : PartTree) (gs : List Group) :
    (gs.foldl (fun t g => .suffix t g.part) t).items =
      t.items ++ gs.map (fun g => .suffix g.part) := by
  induction gs generalizing t with
  | nil => simp
  | cons g gs ih =>
    rw [List.foldl_cons, ih, OpTree.items]
    simp

theorem StandsAsOperand.lineOf_append {gs : List Group} (hgs : StandsAsOperand gs)
    (rest : List Part) : lineOf .before (partsOf gs ++ rest) =
      (lineOf .behind rest).map ((operandTree gs).items ++ ·) := by
  obtain ⟨g, hs, rfl, hblank, hbefore, hstarts, hhs⟩ := hgs
  rw [partsOf_cons hblank, partsOf_eq_map hhs.1, List.cons_append, lineOf, hbefore]
  simp only [hstarts, if_true]
  rw [hhs.2, Option.map_map, operandTree, foldl_suffix_items]
  rfl

theorem UnOp.partsOf_groups (op : UnOp) :
    ∃ p, partsOf op.groups = [p] ∧ p.before? = some op.word := by
  cases op with
  | not => exact ⟨(Group.word "not").part, rfl, by decide⟩
  | neg => exact ⟨(Group.sign "-").part, rfl, by decide⟩
  | bnot => exact ⟨(Group.sign "~").part, rfl, by decide⟩

theorem BinOp.part_group (op : BinOp) :
    op.group.isBlank = false ∧ op.group.part.between? = some op.sign := by
  cases op <;> decide

/-- **An expression is printed as the line of its tree.** -/
theorem Expr.lineOf_append (newLine : String) (depth : Nat) : ∀ e : Expr, e.Printable →
    ∀ rest, lineOf .before (partsOf (e.groups newLine depth) ++ rest) =
      (lineOf .behind rest).map ((e.tree newLine depth).items ++ ·)
  | .unary op operand, he, rest => by
    have hoperand := operand.lineOf_append newLine depth he.2 rest
    obtain ⟨p, hparts, hbefore⟩ := op.partsOf_groups
    rw [Expr.groups, partsOf_append, hparts, List.append_assoc, List.singleton_append, lineOf,
      hbefore]
    simp only [hoperand, Option.map_map, Expr.tree, OpTree.items]
    rfl
  | .binary op lhs rhs, he, rest => by
    obtain ⟨hblank, hbetween⟩ := op.part_group
    have hrhs := rhs.lineOf_append newLine depth he.2 rest
    have hline : lineOf .behind (op.group.part :: (partsOf (rhs.groups newLine depth) ++ rest)) =
        (lineOf .behind rest).map (.between op.sign :: (rhs.tree newLine depth).items ++ ·) := by
      rw [lineOf, hbetween]
      simp only [hrhs, Option.map_map]
      rfl
    have hparts : partsOf (Expr.groups newLine depth (.binary op lhs rhs)) ++ rest =
        partsOf (lhs.groups newLine depth) ++
          op.group.part :: (partsOf (rhs.groups newLine depth) ++ rest) := by
      simp [Expr.groups, partsOf_cons hblank]
    rw [hparts, lhs.lineOf_append newLine depth he.1, hline, Option.map_map]
    congr 1
    funext line
    simp [Expr.tree, OpTree.items]
  | .number _, he, rest | .string _, he, rest | .bool _, he, rest | .nil, he, rest
  | .name _, he, rest | .builtin _, he, rest | .dots, he, rest | .table _, he, rest
  | .call _ _, he, rest | .member _ _, he, rest | .paren _, he, rest | .lambda _ _ _, he, rest
  | .function _ _, he, rest => (Expr.standsAsOperand newLine depth _ he rfl).lineOf_append rest

/-! ### Levels -/

/-- The operator at the top of an expression, if it is a binary one. -/
def Expr.op? : Expr → Option BinOp
  | .binary op _ _ => some op
  | _ => none

/-- Whether every operator of an expression stands where its level allows it. -/
def Expr.RespectsLevels : Expr → Prop
  | .paren inner => inner.RespectsLevels
  | .unary _ operand => operand.op? = none ∧ operand.RespectsLevels
  | .binary op lhs rhs =>
    (∀ op', lhs.op? = some op' →
        op.level < op'.level ∨ op.level = op'.level ∧ op.fromRight = false) ∧
      (∀ op', rhs.op? = some op' →
        op.level < op'.level ∨ op.level = op'.level ∧ op.fromRight = true) ∧
      lhs.RespectsLevels ∧ rhs.RespectsLevels
  | _ => True

theorem BinOp.operatorLevel_sign (op : BinOp) : operatorLevel op.sign + 1 = op.level := by
  cases op <;> decide

theorem BinOp.fromRight_sign (op : BinOp) : operatorLevels.fromRight op.sign = op.fromRight := by
  cases op <;> decide

/-- Levels are compared alike for operators and for their signs. -/
theorem BinOp.level_sign {op op' : BinOp} {right : Bool}
    (h : op.level < op'.level ∨ op.level = op'.level ∧ op.fromRight = right) :
    operatorLevel op.sign < operatorLevel op'.sign ∨
      operatorLevel op.sign = operatorLevel op'.sign ∧
        operatorLevels.fromRight op.sign = right := by
  rw [← op.operatorLevel_sign, ← op'.operatorLevel_sign, ← op.fromRight_sign] at h
  exact h.imp (fun hlt => Nat.lt_of_succ_lt_succ hlt) fun heq => ⟨Nat.succ_injective heq.1, heq.2⟩

theorem isBare_operandTree (gs : List Group) : (operandTree gs).IsBare := by
  have hfold (gs : List Group) (t : PartTree) (ht : t.IsBare) :
      (gs.foldl (fun t g => .suffix t g.part) t).IsBare := by
    induction gs generalizing t with
    | nil => exact ht
    | cons g gs ih => exact ih _ ht
  cases gs with
  | nil => trivial
  | cons g gs => exact hfold gs _ trivial

theorem Expr.op?_tree (e : Expr) : (e.tree newLine depth).op? = e.op?.map BinOp.sign := by
  cases e with
  | unary | binary => rfl
  | _ => exact (isBare_operandTree _).op?_eq_none

theorem Expr.grouped_tree : ∀ e : Expr, e.RespectsLevels →
    (e.tree newLine depth).Grouped operatorLevels
  | .unary op operand, he => by
    refine ⟨?_, operand.grouped_tree he.2⟩
    rw [operand.op?_tree, he.1]
    rfl
  | .binary op lhs rhs, he => by
    obtain ⟨hleft, hright, hlhs, hrhs⟩ := he
    refine ⟨fun b hb => ?_, fun b hb => ?_, lhs.grouped_tree hlhs, rhs.grouped_tree hrhs⟩
    · rw [lhs.op?_tree] at hb
      obtain ⟨op', hop', rfl⟩ := Option.map_eq_some_iff.mp hb
      exact BinOp.level_sign (hleft op' hop')
    · rw [rhs.op?_tree] at hb
      obtain ⟨op', hop', rfl⟩ := Option.map_eq_some_iff.mp hb
      exact BinOp.level_sign (hright op' hop')
  | .number _, _ | .string _, _ | .bool _, _ | .nil, _ | .name _, _ | .builtin _, _ | .dots, _
  | .table _, _ | .call _ _, _ | .member _ _, _ | .paren _, _ | .lambda _ _ _, _
  | .function _ _, _ => (isBare_operandTree _).grouped operatorLevels

/-! ### Operators and operands as they are written -/

/-- The operators of an expression, with its operands as they are written. -/
def Expr.operators (newLine : String) (depth : Nat) : Expr → OperatorTree
  | .paren inner => inner.operators newLine depth
  | .unary op operand => .sign op.word (operand.operators newLine depth)
  | .binary op lhs rhs =>
    .binary op.sign (lhs.operators newLine depth) (rhs.operators newLine depth)
  | e => .leaf (exprText newLine depth e)

theorem foldl_suffix_text (t : PartTree) (gs : List Group) :
    operandText (gs.foldl (fun t g => .suffix t g.part) t) =
      operandText t ++ String.ofList (charsOf gs) := by
  induction gs generalizing t with
  | nil => simp [charsOf_nil]
  | cons g gs ih =>
    rw [List.foldl_cons, ih, operandText, ← List.singleton_append, charsOf_append]
    simp [Part.text, Group.part, String.append_assoc]

theorem resolve_operandTree_append (gs : List Group) (hgs : gs ≠ []) (g : Group) :
    resolve (operandTree (gs ++ [g])) = some (.leaf (String.ofList (charsOf (gs ++ [g])))) := by
  obtain ⟨h, hs, rfl⟩ := List.exists_cons_of_ne_nil hgs
  rw [List.cons_append, operandTree, List.foldl_append, List.foldl_cons, List.foldl_nil, resolve,
    foldl_suffix_text]
  have hcons : h :: (hs ++ [g]) = [h] ++ hs ++ [g] := by simp
  rw [hcons, charsOf_append, charsOf_append]
  simp [operandText, Part.text, Group.part, String.append_assoc]

theorem resolve_operandTree_singleton {g : Group} (hg : g.part.isParenthesis = false) :
    resolve (operandTree [g]) = some (.leaf (String.ofList (charsOf [g]))) := by
  rw [operandTree, List.foldl_nil, resolve, hg]
  rfl

theorem resolve_leaf {gs : List Group} {text : String} (hchars : charsOf gs = text.toList)
    (h : resolve (operandTree gs) = some (.leaf (String.ofList (charsOf gs)))) :
    resolve (operandTree gs) = some (.leaf text) := by
  rw [h, hchars, String.ofList_toList]

theorem StandsAsOperand.ne_nil {gs : List Group} (hgs : StandsAsOperand gs) : gs ≠ [] := by
  obtain ⟨g, rest, rfl, -⟩ := hgs
  simp

theorem Builtin.resolve_operandTree (b : Builtin) :
    resolve (operandTree b.groups) = some (.leaf (String.ofList (charsOf b.groups))) := by
  cases b with
  | tableUnpack => exact resolve_operandTree_append [.word "table", .sign "."] (by simp) _
  | bit32 op => exact resolve_operandTree_append [.word "bit32", .sign "."] (by simp) _
  | bit op => exact resolve_operandTree_append [.word "bit", .sign "."] (by simp) _
  | _ => exact resolve_operandTree_singleton rfl

/-- A printed expression is read as its tree. -/
theorem Expr.treeOf_groups (e : Expr) (he : e.Printable) (hlevels : e.RespectsLevels) :
    treeOf (partsOf (e.groups newLine depth)) = resolve (e.tree newLine depth) := by
  have hline := e.lineOf_append newLine depth he []
  have hread : OpTree.read? operatorLevels (e.tree newLine depth).items =
      some (e.tree newLine depth) :=
    OpTree.read?_eq_some_iff.mpr ⟨rfl, e.grouped_tree hlevels⟩
  rw [List.append_nil, lineOf, Option.map_some, List.append_nil] at hline
  rw [treeOf, hline, Option.bind_some, hread, Option.bind_some]

theorem Expr.resolve_tree : ∀ e : Expr, e.Printable → e.RespectsLevels →
    resolve (e.tree newLine depth) = some (e.operators newLine depth)
  | .unary op operand, he, hlevels => by
    rw [Expr.tree, resolve, operand.resolve_tree he.2 hlevels.2]
    rfl
  | .binary op lhs rhs, he, hlevels => by
    obtain ⟨-, -, hlhs, hrhs⟩ := hlevels
    rw [Expr.tree, resolve, lhs.resolve_tree he.1 hlhs, rhs.resolve_tree he.2 hrhs]
    rfl
  | .paren inner, he, hlevels => by
    have hinner := inner.resolve_tree he hlevels
    -- The part for the parentheses holds what its groups are read as.
    rw [← inner.treeOf_groups he hlevels] at hinner
    exact hinner
  | .number _, _, _ | .string _, _, _ | .bool true, _, _ | .bool false, _, _ | .nil, _, _
  | .name _, _, _ | .dots, _, _ | .table _, _, _ | .lambda _ none _, _, _
  | .lambda _ (some _) _, _, _ | .function _ _, _, _ =>
    resolve_leaf (Expr.charsOf_groups _ _ _) (resolve_operandTree_singleton rfl)
  | .builtin b, _, _ => resolve_leaf b.charsOf_groups b.resolve_operandTree
  | .call callee args, he, _ => by
    have hne := (callee.standsAsOperand newLine depth he.2.1 (Expr.isOperand_of_isHead he.1)).ne_nil
    exact resolve_leaf (Expr.charsOf_groups _ _ _) (resolve_operandTree_append _ hne _)
  | .member owner key, he, _ => by
    have hne := (owner.standsAsOperand newLine depth he.2 (Expr.isOperand_of_isHead he.1)).ne_nil
    refine resolve_leaf (Expr.charsOf_groups _ _ _) ?_
    rw [Expr.groups]
    split
    · exact resolve_operandTree_singleton rfl
    · split
      · rw [List.append_cons]
        exact resolve_operandTree_append _ (by simp) _
      · exact resolve_operandTree_append _ hne _

/-- **The operators of a printed expression are read off its text**, if they stand where their levels
allow it. -/
theorem Expr.operators?_exprText (hline : IsLineEnd newLine) {e : Expr} (he : e.Printable)
    (hlevels : e.RespectsLevels) :
    operators? (exprText newLine depth e) = some (e.operators newLine depth) := by
  obtain ⟨ts, hts, hgs⟩ := Option.bind_eq_some_iff.mp (Expr.groups?_exprText hline he)
  rw [operators?, hts, Option.bind_some, hgs, Option.bind_some, e.treeOf_groups he hlevels,
    e.resolve_tree he hlevels]

end LuaSnippet.Lua
