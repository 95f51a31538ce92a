import LuaSnippet.Proofs.Lua.Grammar

/-!
# Trees that are printed as Lua

Not every tree is printed as a Lua text: a number has no members, a declaration has names, and nothing
stands behind a return. A tree that keeps to this is printed as the grammar wants it
(`derives_stmtsGroups`).
-/

namespace LuaSnippet.Lua

/-! ### Grammatical trees -/

/-- Whether an expression can be called and have members. -/
def Expr.isPrefix : Expr → Bool
  | .name _ | .builtin _ | .call _ _ | .member _ _ | .paren _ => true
  | _ => false

def Expr.isVariable : Expr → Bool
  | .name _ | .builtin _ | .member _ _ => true
  | _ => false

def Expr.isCall : Expr → Bool
  | .call _ _ => true
  | _ => false

def Stmt.isResult : Stmt → Bool
  | .result _ => true
  | _ => false

def Stmt.form : Stmt → Form
  | .result _ => .last
  | _ => .stat

/-- Whether a dialect has an operator before an operand. -/
def UnOp.isIn (d : Dialect) : UnOp → Bool
  | .bnot => d = .lua53
  | _ => true

/-- Whether a dialect has an operator between operands. -/
def BinOp.isIn (d : Dialect) : BinOp → Bool
  | .bor | .bxor | .band | .shl | .shr => d = .lua53
  | _ => true

/-- Whether parameters have names, and all further arguments come last. -/
def AreParams : List Param → Prop
  | [] => True
  | .name n :: rest => isName n = true ∧ AreParams rest
  | .dots :: rest => rest = []

def AreNames (names : List String) : Prop :=
  names ≠ [] ∧ ∀ n ∈ names, isName n = true

mutual

/-- Whether an expression is printed as one of Lua. -/
def Expr.Grammatical (d : Dialect) : Expr → Prop
  | .number text => IsNumberIn d text.toList
  | .name n => isName n = true
  | .table fields => FieldsGrammatical d fields
  | .call callee args => callee.isPrefix = true ∧ callee.Grammatical d ∧ ExprsGrammatical d args
  | .member owner _ => owner.isPrefix = true ∧ owner.Grammatical d
  | .paren inner => inner.Grammatical d
  | .unary op operand => op.isIn d = true ∧ operand.Grammatical d
  | .binary op lhs rhs => op.isIn d = true ∧ lhs.Grammatical d ∧ rhs.Grammatical d
  | .lambda params packed value =>
    AreParams params ∧ (∀ n ∈ packed, isName n = true) ∧ value.Grammatical d
  | .function params body => AreParams params ∧ StmtsGrammatical d body
  | .string _ | .bool _ | .nil | .builtin _ | .dots => True

def ExprsGrammatical (d : Dialect) : List Expr → Prop
  | [] => True
  | e :: rest => e.Grammatical d ∧ ExprsGrammatical d rest

def Field.Grammatical (d : Dialect) : Field → Prop
  | .item value => value.Grammatical d
  | .entry _ value => value.Grammatical d

def FieldsGrammatical (d : Dialect) : List Field → Prop
  | [] => True
  | f :: rest => f.Grammatical d ∧ FieldsGrammatical d rest

/-- Whether a statement is printed as one of Lua. -/
def Stmt.Grammatical (d : Dialect) : Stmt → Prop
  | .declare names none => AreNames names
  | .declare names (some value) => AreNames names ∧ value.Grammatical d
  | .function name params body => isName name = true ∧ AreParams params ∧ StmtsGrammatical d body
  | .assign target value =>
    target.isVariable = true ∧ target.Grammatical d ∧ value.Grammatical d
  | .call value => value.isCall = true ∧ value.Grammatical d
  | .discard value | .result (some value) => value.Grammatical d
  | .result none => True
  | .block body => StmtsGrammatical d body
  | .cond test body rest => test.Grammatical d ∧ StmtsGrammatical d body ∧ rest.Grammatical d
  | .forIn names iterator body =>
    AreNames names ∧ iterator.Grammatical d ∧ StmtsGrammatical d body

def Else.Grammatical (d : Dialect) : Else → Prop
  | .done => True
  | .otherwise body => StmtsGrammatical d body
  | .elseIf test body rest => test.Grammatical d ∧ StmtsGrammatical d body ∧ rest.Grammatical d

/-- Whether statements are printed as those of Lua: what returns is the last one. -/
def StmtsGrammatical (d : Dialect) : List Stmt → Prop
  | [] => True
  | s :: rest => s.Grammatical d ∧ (s.isResult = true → rest = []) ∧ StmtsGrammatical d rest

end

/-! ### Parts of printed trees -/

variable {d : Dialect} {newLine : String} {depth : Nat}

theorem solidOf_commaJoined_cons (gs hs : List Group) (rest : List (List Group)) :
    solidOf (commaJoined (gs :: hs :: rest)) =
      solidOf gs ++ .sign "," :: solidOf (commaJoined (hs :: rest)) := by
  simp [commaJoined]

theorem derives_exps {gss : List (List Group)} (hne : gss ≠ [])
    (hgss : ∀ gs ∈ gss, Derives d .exp (solidOf gs)) :
    Derives d .exps (solidOf (commaJoined gss)) := by
  induction gss with
  | nil => exact absurd rfl hne
  | cons gs gss ih =>
    obtain ⟨hgs, hrest⟩ := List.forall_mem_cons.mp hgss
    cases gss with
    | nil => exact .oneExp hgs
    | cons hs gss =>
      rw [solidOf_commaJoined_cons]
      exact .moreExps hgs (ih (List.cons_ne_nil _ _) hrest)

theorem derives_args {gss : List (List Group)} (hgss : ∀ gs ∈ gss, Derives d .exp (solidOf gs)) :
    Derives d .args [.parens (solidOf (commaJoined gss))] := by
  cases gss with
  | nil => exact .noArgs
  | cons gs gss => exact .someArgs (derives_exps (List.cons_ne_nil _ _) hgss)

theorem derives_fields {gss : List (List Group)}
    (hgss : ∀ gs ∈ gss, Derives d .field (solidOf gs)) :
    Derives d .fields (solidOf (commaJoined gss)) := by
  induction gss with
  | nil => exact .noFields
  | cons gs gss ih =>
    obtain ⟨hgs, hrest⟩ := List.forall_mem_cons.mp hgss
    cases gss with
    | nil => exact .lastField hgs
    | cons hs gss =>
      rw [solidOf_commaJoined_cons]
      exact .moreFields (by simp) hgs (ih hrest)

theorem derives_names {names : List String} (hnames : AreNames names) :
    Derives d .names (solidOf (namesGroups names)) := by
  obtain ⟨hne, hall⟩ := hnames
  induction names with
  | nil => exact absurd rfl hne
  | cons n names ih =>
    obtain ⟨hn, hrest⟩ := List.forall_mem_cons.mp hall
    cases names with
    | nil => exact .oneName hn
    | cons m names =>
      have hmore := ih (List.cons_ne_nil _ _) hrest
      rw [namesGroups, List.map_cons] at hmore
      rw [namesGroups, List.map_cons, List.map_cons, solidOf_commaJoined_cons]
      exact .moreNames hn hmore

theorem derives_params {params : List Param} (hparams : AreParams params) :
    Derives d .params (solidOf (commaJoined (params.map Param.groups))) := by
  -- One name with what may follow it, so that the names before the dots are at hand together.
  have hnames : ∀ (n : String) (rest : List Param), isName n = true → AreParams rest →
      ∃ gs, Derives d .names gs ∧ (solidOf (commaJoined ((Param.name n :: rest).map Param.groups)) =
        gs ∨ solidOf (commaJoined ((Param.name n :: rest).map Param.groups)) =
          gs ++ [.sign ",", .sign "..."]) := by
    intro n rest
    induction rest generalizing n with
    | nil => exact fun hn _ => ⟨_, .oneName hn, .inl rfl⟩
    | cons p rest ih =>
      intro hn hrest
      rw [List.map_cons, List.map_cons, solidOf_commaJoined_cons]
      cases p with
      | dots =>
        obtain rfl : rest = [] := hrest
        exact ⟨_, .oneName hn, .inr rfl⟩
      | name m =>
        obtain ⟨gs, hgs, hcases⟩ := ih m hrest.1 hrest.2
        rw [List.map_cons] at hcases
        refine ⟨_, .moreNames hn hgs, ?_⟩
        rcases hcases with heq | heq
        · exact .inl (by rw [heq]; rfl)
        · exact .inr (by rw [heq]; rfl)
  match params, hparams with
  | [], _ => exact .noParams
  | .dots :: rest, hrest =>
    obtain rfl : rest = [] := hrest
    exact .onlyDots
  | .name n :: rest, hrest =>
    obtain ⟨gs, hgs, heq | heq⟩ := hnames n rest hrest.1 hrest.2
    · exact heq ▸ .onlyNames hgs
    · exact heq ▸ .namesAndDots hgs

theorem derives_builtin (b : Builtin) : Derives d .var (solidOf b.groups) := by
  have hname {s : String} (hs : isName s = true) : Derives d .prefixed [.word s] :=
    .ofVar (.name hs)
  cases b with
  | tableUnpack => exact .member (hname (by decide)) (by decide)
  | bit32 op | bit op =>
    cases op <;> exact .member (hname (by decide)) (by decide)
  | _ => exact .name (by decide)

theorem UnOp.derives (op : UnOp) (hop : op.isIn d = true) {gs : List Group}
    (hgs : Derives d .exp gs) : Derives d .exp (solidOf op.groups ++ gs) := by
  cases op with
  | bnot =>
    have hd : d = .lua53 := by simpa [UnOp.isIn] using hop
    have hmem : .sign "~" ∈ unaryOperators d := by simp [unaryOperators, hd]
    exact .unary hmem hgs
  | not =>
    have hmem : .word "not" ∈ unaryOperators d := by simp [unaryOperators]
    exact .unary hmem hgs
  | neg =>
    have hmem : .sign "-" ∈ unaryOperators d := by simp [unaryOperators]
    exact .unary hmem hgs

theorem BinOp.mem_binaryOperators (op : BinOp) (hop : op.isIn d = true) :
    op.group ∈ binaryOperators d := by
  cases op with
  | bor | bxor | band | shl | shr =>
    have hd : d = .lua53 := by simpa [BinOp.isIn] using hop
    simp [binaryOperators, hd, BinOp.group, BinOp.sign]
  | _ => simp [binaryOperators, BinOp.group, BinOp.sign]

@[simp] theorem solidOf_binary (op : BinOp) (gs hs : List Group) :
    solidOf (gs ++ ([.space, op.group, .space] ++ hs)) = solidOf gs ++ op.group :: solidOf hs := by
  cases op <;> simp [BinOp.group]

theorem Expr.numeral?_eq_none : ∀ e : Expr, e.isPrefix = true → e.Grammatical d → e.numeral? = none
  | .member owner key, _, he => by
    have howner := owner.numeral?_eq_none he.1 he.2
    simp [Expr.numeral?, howner]
  | .name _, _, _ | .builtin _, _, _ | .call _ _, _, _ | .paren _, _, _ => rfl

/-! ### Printed trees are Lua -/

/-- What an expression is printed as: an expression, and what it can be beside. -/
structure Expr.Derived (d : Dialect) (e : Expr) (gs : List Group) : Prop where
  exp : Derives d .exp gs
  prefixed : e.isPrefix = true → Derives d .prefixed gs
  var : e.isVariable = true → Derives d .var gs
  call : e.isCall = true → Derives d .call gs

theorem Expr.Derived.ofVar {e : Expr} {gs : List Group} (hgs : Derives d .var gs)
    (hcall : e.isCall = false) : e.Derived d gs :=
  ⟨.prefixed (.ofVar hgs), fun _ => .ofVar hgs, fun _ => hgs, fun h => by simp [hcall] at h⟩

mutual

theorem Expr.derived (newLine : String) (depth : Nat) : ∀ e : Expr, e.Grammatical d →
    e.Derived d (solidOf (e.groups newLine depth))
  | .number _, he => ⟨.number he, nofun, nofun, nofun⟩
  | .string _, _ => ⟨.string rfl, nofun, nofun, nofun⟩
  | .bool true, _ | .bool false, _ | .nil, _ => ⟨.constant (by simp), nofun, nofun, nofun⟩
  | .dots, _ => ⟨.dots, nofun, nofun, nofun⟩
  | .table fields, he =>
    ⟨.table (derives_fields (derives_fieldsGroups newLine depth fields he)), nofun, nofun, nofun⟩
  | .unary op operand, he => by
    have hoperand := operand.derived newLine depth he.2
    rw [Expr.groups, solidOf_append]
    exact ⟨op.derives he.1 hoperand.exp, nofun, nofun, nofun⟩
  | .binary op lhs rhs, he => by
    have hlhs := lhs.derived newLine depth he.2.1
    have hrhs := rhs.derived newLine depth he.2.2
    rw [Expr.groups, List.append_assoc, solidOf_binary]
    exact ⟨.binary (op.mem_binaryOperators he.1) hlhs.exp hrhs.exp, nofun, nofun, nofun⟩
  | .lambda params none value, he => by
    have hvalue := value.derived newLine depth he.2.2
    have hbody := Derives.body (derives_params he.1) (.lastStat (.returnSome (.oneExp hvalue.exp)))
    refine ⟨?_, nofun, nofun, nofun⟩
    simpa [Expr.groups, paramsGroup] using Derives.function hbody
  | .lambda params (some name) value, he => by
    have hvalue := value.derived newLine depth he.2.2
    have hname : Derives d .names [.word name] := .oneName (he.2.1 name rfl)
    have hpacked : Derives d .exps [.braces [.sign "..."]] :=
      .oneExp (.table (.lastField (.item .dots)))
    have hbody := Derives.body (derives_params he.1)
      (.moreStatsEnded (.localValues hname hpacked)
        (.lastStat (.returnSome (.oneExp hvalue.exp))))
    refine ⟨?_, nofun, nofun, nofun⟩
    simpa [Expr.groups, paramsGroup, packGroups] using Derives.function hbody
  | .function params body, he => by
    have hbody := derives_stmtsGroups newLine (depth + 1) body he.2
    refine ⟨?_, nofun, nofun, nofun⟩
    simpa [Expr.groups, paramsGroup] using Derives.function (.body (derives_params he.1) hbody)
  | .name n, he => .ofVar (.name he) rfl
  | .builtin b, _ => .ofVar (derives_builtin b) rfl
  | .member owner key, he => by
    have howner := (owner.derived newLine depth he.2).prefixed he.1
    rw [Expr.groups, (Expr.member owner key).numeral?_eq_none rfl he]
    simp only
    split
    · rename_i hkey
      rw [solidOf_append]
      exact .ofVar (.member howner hkey) rfl
    · rw [solidOf_append]
      exact .ofVar (.index howner (.string rfl)) rfl
  | .call callee args, he => by
    have hcallee := (callee.derived newLine depth he.2.1).prefixed he.1
    have hargs := derives_args (derives_exprsGroups newLine depth args he.2.2)
    rw [Expr.groups, solidOf_append]
    have hcall := Derives.callOf hcallee hargs
    exact ⟨.prefixed (.ofCall hcall), fun _ => .ofCall hcall, nofun, fun _ => hcall⟩
  | .paren inner, he => by
    have hparen := Derives.paren (inner.derived newLine depth he).exp
    exact ⟨.prefixed hparen, fun _ => hparen, nofun, nofun⟩

theorem derives_exprsGroups (newLine : String) (depth : Nat) : ∀ es : List Expr,
    ExprsGrammatical d es → ∀ gs ∈ exprsGroups newLine depth es, Derives d .exp (solidOf gs)
  | [], _ => nofun
  | e :: rest, hes => List.forall_mem_cons.mpr
      ⟨(e.derived newLine depth hes.1).exp, derives_exprsGroups newLine depth rest hes.2⟩

theorem Field.derives (newLine : String) (depth : Nat) : ∀ f : Field, f.Grammatical d →
    Derives d .field (solidOf (f.groups newLine depth))
  | .item value, hf => .item (value.derived newLine depth hf).exp
  | .entry key value, hf => by
    have hvalue := value.derived newLine depth hf
    rw [Field.groups]
    split
    · rename_i hkey
      simpa using Derives.named hkey hvalue.exp
    · have hkeyed : Derives d .field (.index key :: .sign "=" :: _) := .keyed (.string rfl) hvalue.exp
      simpa using hkeyed

theorem derives_fieldsGroups (newLine : String) (depth : Nat) : ∀ fs : List Field,
    FieldsGrammatical d fs → ∀ gs ∈ fieldsGroups newLine depth fs, Derives d .field (solidOf gs)
  | [], _ => nofun
  | f :: rest, hfs => List.forall_mem_cons.mpr
      ⟨f.derives newLine depth hfs.1, derives_fieldsGroups newLine depth rest hfs.2⟩

theorem Stmt.derives (newLine : String) (depth : Nat) : ∀ s : Stmt, s.Grammatical d →
    Derives d s.form (solidOf (s.groups newLine depth))
  | .declare names none, hs => by
    simpa [Stmt.form, Stmt.groups] using Derives.localNames (derives_names hs)
  | .declare names (some value), hs => by
    have hvalue := value.derived newLine depth hs.2
    simpa [Stmt.form, Stmt.groups] using Derives.localValues (derives_names hs.1) (.oneExp hvalue.exp)
  | .function name params body, hs => by
    have hbody := derives_stmtsGroups newLine (depth + 1) body hs.2.2
    have hfunction := Derives.localFunction hs.1 (.body (derives_params hs.2.1) hbody)
    simpa [Stmt.form, Stmt.groups, paramsGroup] using hfunction
  | .assign target value, hs => by
    have htarget := (target.derived newLine depth hs.2.1).var hs.1
    have hvalue := value.derived newLine depth hs.2.2
    simpa [Stmt.form, Stmt.groups] using Derives.assign (.oneVar htarget) (.oneExp hvalue.exp)
  | .call value, hs => .callStat ((value.derived newLine depth hs.2).call hs.1)
  | .discard value, hs => by
    have hvalue := value.derived newLine depth hs
    have hname : Derives d .names [.word "____"] := .oneName (by decide)
    simpa [Stmt.form, Stmt.groups] using Derives.localValues hname (.oneExp hvalue.exp)
  | .result none, _ => .returnNone
  | .result (some value), hs => by
    have hvalue := value.derived newLine depth hs
    simpa [Stmt.form, Stmt.groups] using Derives.returnSome (.oneExp hvalue.exp)
  | .block body, hs => by
    have hbody := derives_stmtsGroups newLine (depth + 1) body hs
    simpa [Stmt.form, Stmt.groups] using Derives.doStat hbody
  | .cond test body rest, hs => by
    have htest := test.derived newLine depth hs.1
    have hbody := derives_stmtsGroups newLine (depth + 1) body hs.2.1
    simpa [Stmt.form, Stmt.groups] using Derives.ifStat (rest.derives newLine depth hs.2.2 _ _ htest.exp hbody)
  | .forIn names iterator body, hs => by
    have hiterator := iterator.derived newLine depth hs.2.1
    have hbody := derives_stmtsGroups newLine (depth + 1) body hs.2.2
    simpa [Stmt.form, Stmt.groups] using Derives.forStat (derives_names hs.1) (.oneExp hiterator.exp) hbody

theorem Else.derives (newLine : String) (depth : Nat) : ∀ r : Else, r.Grammatical d →
    ∀ gs hs, Derives d .exp gs → Derives d .block hs →
      Derives d .branches (gs ++ .word "then" :: (hs ++ solidOf (r.groups newLine depth)))
  | .done, _, _, _, hgs, hhs => by
    simpa [Else.groups] using Derives.oneBranch hgs hhs
  | .otherwise body, hr, _, _, hgs, hhs => by
    have hbody := derives_stmtsGroups newLine (depth + 1) body hr
    simpa [Else.groups] using Derives.elseBranch hgs hhs hbody
  | .elseIf test body rest, hr, _, _, hgs, hhs => by
    have htest := test.derived newLine depth hr.1
    have hbody := derives_stmtsGroups newLine (depth + 1) body hr.2.1
    have hrest := rest.derives newLine depth hr.2.2 _ _ htest.exp hbody
    simpa [Else.groups] using Derives.moreBranches hgs hhs hrest

/-- **Grammatical statements are printed as a block of Lua.** -/
theorem derives_stmtsGroups (newLine : String) (depth : Nat) : ∀ ss : List Stmt,
    StmtsGrammatical d ss → Derives d .block (solidOf (stmtsGroups newLine depth ss))
  | [], _ => .noStats
  | s :: rest, hss => by
    have hs := s.derives newLine depth hss.1
    have hrest := derives_stmtsGroups newLine depth rest hss.2.2
    cases s with
    | result value =>
      obtain rfl := hss.2.1 rfl
      simpa [stmtsGroups] using Derives.lastStat hs
    | _ => simpa [stmtsGroups] using Derives.moreStats hs hrest

end

end LuaSnippet.Lua
