import LuaSnippet.Dialect
import LuaSnippet.Proofs.Lua.Balance

/-!
# The grammar of Lua

What the manuals of the dialects give as the syntax of Lua, over the tokens of a text without the white
space between them. The tokens are taken in their groups, so that what stands in brackets, and between a
keyword and its end, is at hand as a whole. All of the syntax is there, also what is never printed: a
text is no Lua only if no rule at all derives it. Line breaks are white space as any other, and `goto`
is a keyword everywhere.
-/

namespace LuaSnippet.Lua

/-! ### Tokens without white space -/

mutual

/-- A group without white space. -/
def Group.solid : Group → List Group
  | .token t => if t.kind = .blank then [] else [.token t]
  | .bracket opening inside closing => [.bracket opening (solidOf inside) closing]

/-- Some groups without white space. -/
def solidOf : List Group → List Group
  | [] => []
  | g :: gs => g.solid ++ solidOf gs

end

/-- The groups of a text without its white space, if it is cut into tokens and they form groups. -/
def solidGroups? (text : String) : Option (List Group) :=
  (tokens? text.toList).bind fun ts => groups? (ts.filter (·.kind ≠ .blank))

section

variable {gs hs : List Group}

@[simp] theorem solidOf_nil : solidOf [] = [] := rfl

@[simp] theorem solidOf_append : solidOf (gs ++ hs) = solidOf gs ++ solidOf hs := by
  induction gs with
  | nil => rfl
  | cons g gs ih => rw [List.cons_append, solidOf, solidOf, ih, List.append_assoc]

@[simp] theorem solidOf_word (s : String) : solidOf (.word s :: gs) = .word s :: solidOf gs := rfl

@[simp] theorem solidOf_sign (s : String) : solidOf (.sign s :: gs) = .sign s :: solidOf gs := rfl

@[simp] theorem solidOf_text (value : String) : solidOf (.token (Token.text value) :: gs) =
    .token (Token.text value) :: solidOf gs := rfl

@[simp] theorem solidOf_space : solidOf (.space :: gs) = solidOf gs := rfl

@[simp] theorem solidOf_parens (inside : List Group) :
    solidOf (.parens inside :: gs) = .parens (solidOf inside) :: solidOf gs := rfl

@[simp] theorem solidOf_braces (inside : List Group) :
    solidOf (.braces inside :: gs) = .braces (solidOf inside) :: solidOf gs := rfl

@[simp] theorem solidOf_index (key : String) :
    solidOf (.index key :: gs) = .index key :: solidOf gs := rfl

@[simp] theorem solidOf_block (keyword : String) (inside : List Group) :
    solidOf (.block keyword inside :: gs) = .block keyword (solidOf inside) :: solidOf gs := rfl

@[simp] theorem solidOf_blanks (s : String) : solidOf (blanks s) = [] := by
  unfold blanks
  induction s.toList with
  | nil => rfl
  | cons c cs ih => exact ih

theorem kind_of_closing? {o c : Token} (h : o.closing? = some c) :
    o.kind ≠ .blank ∧ c.kind ≠ .blank := by
  have hpairs : ∀ p ∈ Token.pairs, p.1.kind ≠ .blank ∧ p.2.kind ≠ .blank := by decide
  unfold Token.closing? at h
  obtain ⟨p, hp, rfl⟩ := Option.map_eq_some_iff.mp h
  have hopening : p.1 = o := by simpa using List.find?_some hp
  exact hopening ▸ hpairs p (List.mem_of_find?_eq_some hp)

mutual

theorem Group.tokens_solid : ∀ (g : Group), g.Balanced →
    tokensOf g.solid = g.tokens.filter (·.kind ≠ .blank)
  | .token t, _ => by
    by_cases ht : t.kind = .blank <;> simp [Group.solid, Group.tokens, tokensOf, ht]
  | .bracket o inside c, hg => by
    obtain ⟨ho, hc⟩ := kind_of_closing? hg.1
    have hinside := tokensOf_solidOf inside hg.2
    simp [Group.solid, Group.tokens, tokensOf, hinside, ho, hc]

theorem tokensOf_solidOf : ∀ (gs : List Group), AllBalanced gs →
    tokensOf (solidOf gs) = (tokensOf gs).filter (·.kind ≠ .blank)
  | [], _ => rfl
  | g :: gs, hgs => by
    rw [solidOf, tokensOf_append, g.tokens_solid hgs.1, tokensOf_solidOf gs hgs.2, tokensOf,
      List.filter_append]

end

mutual

theorem Group.balanced_solid : ∀ (g : Group), g.Balanced → AllBalanced g.solid
  | .token t, hg => by
    rw [Group.solid]
    split
    · trivial
    · exact ⟨hg, trivial⟩
  | .bracket _ inside _, hg => ⟨⟨hg.1, allBalanced_solidOf inside hg.2⟩, trivial⟩

theorem allBalanced_solidOf : ∀ (gs : List Group), AllBalanced gs → AllBalanced (solidOf gs)
  | [], _ => trivial
  | g :: gs, hgs => allBalanced_append.mpr ⟨g.balanced_solid hgs.1, allBalanced_solidOf gs hgs.2⟩

end

/-- **Groups are found again in their text**, without the white space. -/
theorem solidGroups?_charsOf (hgs : Legible gs) (hbalanced : AllBalanced gs) :
    solidGroups? (String.ofList (charsOf gs)) = some (solidOf gs) := by
  obtain ⟨hvalid, hchain⟩ := hgs
  rw [solidGroups?, String.toList_ofList, charsOf, tokens?_flatMap hvalid hchain, Option.bind_some,
    ← tokensOf_solidOf gs hbalanced, groups?_tokensOf (allBalanced_solidOf gs hbalanced)]

end

/-! ### Words and operators -/

def isHexDigit (c : Char) : Bool :=
  c.isDigit || ('a' ≤ c && c ≤ 'f') || ('A' ≤ c && c ≤ 'F')

/-- Digits with a point among them or without one, at least one digit. -/
inductive IsMantissa (digit : Char → Bool) : List Char → Prop where
  | whole {ds : List Char} (hne : ds ≠ []) (hds : ∀ c ∈ ds, digit c = true) : IsMantissa digit ds
  | pointed {ds es : List Char} (hne : ds ++ es ≠ []) (hds : ∀ c ∈ ds, digit c = true)
      (hes : ∀ c ∈ es, digit c = true) : IsMantissa digit (ds ++ '.' :: es)

/-- Nothing, or a mark with digits behind it and a sign or none between them. -/
inductive IsExponent (marks : List Char) : List Char → Prop where
  | none : IsExponent marks []
  | some {mark : Char} {sign ds : List Char} (hmark : mark ∈ marks)
      (hsign : sign ∈ [[], ['+'], ['-']]) (hne : ds ≠ []) (hds : ∀ c ∈ ds, c.isDigit = true) :
      IsExponent marks (mark :: (sign ++ ds))

/-- Whether a word is a number for a dialect. Lua 5.1 has only whole numbers to base sixteen. -/
inductive IsNumberIn (d : Dialect) : List Char → Prop where
  | decimal {ms es : List Char} (hms : IsMantissa Char.isDigit ms) (hes : IsExponent ['e', 'E'] es) :
      IsNumberIn d (ms ++ es)
  | hex {mark : Char} {ms es : List Char} (hmark : mark ∈ ['x', 'X'])
      (hms : IsMantissa isHexDigit ms) (hes : IsExponent ['p', 'P'] es)
      (hwhole : d = .lua51 → '.' ∉ ms ∧ es = []) : IsNumberIn d ('0' :: mark :: (ms ++ es))

/-- The operators of a dialect between two operands. -/
def binaryOperators (d : Dialect) : List Group :=
  ["+", "-", "*", "/", "^", "%", "..", "<", "<=", ">", ">=", "==", "~="].map Group.sign ++
    [.word "and", .word "or"] ++
    if d = .lua53 then ["//", "&", "~", "|", ">>", "<<"].map Group.sign else []

def unaryOperators (d : Dialect) : List Group :=
  [.sign "-", .word "not", .sign "#"] ++ if d = .lua53 then [.sign "~"] else []

def Group.indexed (inside : List Group) : Group :=
  .bracket (Token.sign ['[']) inside (Token.sign [']'])

def Group.repeated (inside : List Group) : Group :=
  .bracket (Token.word "repeat".toList) inside (Token.word "until".toList)

/-! ### Derivations -/

/-- The forms of Lua's syntax. -/
inductive Form where
  | exp
  /-- Expressions with commas between them, at least one. -/
  | exps
  /-- What can be called, indexed and asked for a member. -/
  | prefixed
  | var
  /-- Variables with commas between them, at least one. -/
  | vars
  | call
  | args
  /-- The fields of a table, with commas or semicolons between them. -/
  | fields
  | field
  /-- Names with commas between them, at least one. -/
  | names
  | params
  /-- Parameters and a block, up to the end of the function. -/
  | body
  /-- The name under which a function is stored. -/
  | path
  | stat
  /-- The statement that ends a block. -/
  | last
  | block
  /-- The branches of a conditional. -/
  | branches
deriving DecidableEq

inductive Derives (d : Dialect) : Form → List Group → Prop where
  -- Expressions.
  | constant {s : String} (hs : s ∈ ["nil", "false", "true"]) : Derives d .exp [.word s]
  | number {s : String} (hs : IsNumberIn d s.toList) : Derives d .exp [.word s]
  | string {t : Token} (ht : t.kind = .text .closed) : Derives d .exp [.token t]
  | dots : Derives d .exp [.sign "..."]
  | function {gs : List Group} (hbody : Derives d .body gs) : Derives d .exp [.block "function" gs]
  | table {gs : List Group} (hfields : Derives d .fields gs) : Derives d .exp [.braces gs]
  | prefixed {gs : List Group} (hgs : Derives d .prefixed gs) : Derives d .exp gs
  | unary {op : Group} {gs : List Group} (hop : op ∈ unaryOperators d)
      (hgs : Derives d .exp gs) : Derives d .exp (op :: gs)
  | binary {op : Group} {gs hs : List Group} (hop : op ∈ binaryOperators d)
      (hgs : Derives d .exp gs) (hhs : Derives d .exp hs) : Derives d .exp (gs ++ op :: hs)
  | oneExp {gs : List Group} (hgs : Derives d .exp gs) : Derives d .exps gs
  | moreExps {gs hs : List Group} (hgs : Derives d .exp gs) (hhs : Derives d .exps hs) :
      Derives d .exps (gs ++ .sign "," :: hs)
  -- What stands before a call, an index or a member.
  | ofVar {gs : List Group} (hgs : Derives d .var gs) : Derives d .prefixed gs
  | ofCall {gs : List Group} (hgs : Derives d .call gs) : Derives d .prefixed gs
  | paren {gs : List Group} (hgs : Derives d .exp gs) : Derives d .prefixed [.parens gs]
  | name {s : String} (hs : isName s = true) : Derives d .var [.word s]
  | index {gs hs : List Group} (hgs : Derives d .prefixed gs) (hhs : Derives d .exp hs) :
      Derives d .var (gs ++ [.indexed hs])
  | member {s : String} {gs : List Group} (hgs : Derives d .prefixed gs) (hs : isName s = true) :
      Derives d .var (gs ++ [.sign ".", .word s])
  | oneVar {gs : List Group} (hgs : Derives d .var gs) : Derives d .vars gs
  | moreVars {gs hs : List Group} (hgs : Derives d .var gs) (hhs : Derives d .vars hs) :
      Derives d .vars (gs ++ .sign "," :: hs)
  -- Calls.
  | callOf {gs hs : List Group} (hgs : Derives d .prefixed gs) (hhs : Derives d .args hs) :
      Derives d .call (gs ++ hs)
  | methodOf {s : String} {gs hs : List Group} (hgs : Derives d .prefixed gs)
      (hname : isName s = true) (hhs : Derives d .args hs) :
      Derives d .call (gs ++ .sign ":" :: .word s :: hs)
  | noArgs : Derives d .args [.parens []]
  | someArgs {gs : List Group} (hgs : Derives d .exps gs) : Derives d .args [.parens gs]
  | tableArg {gs : List Group} (hgs : Derives d .fields gs) : Derives d .args [.braces gs]
  | stringArg {t : Token} (ht : t.kind = .text .closed) : Derives d .args [.token t]
  -- Tables.
  | noFields : Derives d .fields []
  | lastField {gs : List Group} (hgs : Derives d .field gs) : Derives d .fields gs
  | moreFields {sep : Group} {gs hs : List Group} (hsep : sep ∈ [.sign ",", .sign ";"])
      (hgs : Derives d .field gs) (hhs : Derives d .fields hs) : Derives d .fields (gs ++ sep :: hs)
  | item {gs : List Group} (hgs : Derives d .exp gs) : Derives d .field gs
  | named {s : String} {gs : List Group} (hs : isName s = true) (hgs : Derives d .exp gs) :
      Derives d .field (.word s :: .sign "=" :: gs)
  | keyed {gs hs : List Group} (hgs : Derives d .exp gs) (hhs : Derives d .exp hs) :
      Derives d .field (.indexed gs :: .sign "=" :: hs)
  -- Functions.
  | oneName {s : String} (hs : isName s = true) : Derives d .names [.word s]
  | moreNames {s : String} {gs : List Group} (hs : isName s = true) (hgs : Derives d .names gs) :
      Derives d .names (.word s :: .sign "," :: gs)
  | noParams : Derives d .params []
  | onlyDots : Derives d .params [.sign "..."]
  | onlyNames {gs : List Group} (hgs : Derives d .names gs) : Derives d .params gs
  | namesAndDots {gs : List Group} (hgs : Derives d .names gs) :
      Derives d .params (gs ++ [.sign ",", .sign "..."])
  | body {gs hs : List Group} (hgs : Derives d .params gs) (hhs : Derives d .block hs) :
      Derives d .body (.parens gs :: hs)
  -- Statements.
  | assign {gs hs : List Group} (hgs : Derives d .vars gs) (hhs : Derives d .exps hs) :
      Derives d .stat (gs ++ .sign "=" :: hs)
  | callStat {gs : List Group} (hgs : Derives d .call gs) : Derives d .stat gs
  | doStat {gs : List Group} (hgs : Derives d .block gs) : Derives d .stat [.block "do" gs]
  | whileStat {gs hs : List Group} (hgs : Derives d .exp gs) (hhs : Derives d .block hs) :
      Derives d .stat (.word "while" :: (gs ++ [.block "do" hs]))
  | repeatStat {gs hs : List Group} (hgs : Derives d .block gs) (hhs : Derives d .exp hs) :
      Derives d .stat (.repeated gs :: hs)
  | ifStat {gs : List Group} (hgs : Derives d .branches gs) : Derives d .stat [.block "if" gs]
  | countStat {s : String} {gs hs ks : List Group} (hname : isName s = true)
      (hgs : Derives d .exp gs) (hhs : Derives d .exp hs) (hks : Derives d .block ks) :
      Derives d .stat (.word "for" :: .word s :: .sign "=" ::
        (gs ++ .sign "," :: (hs ++ [.block "do" ks])))
  | stepStat {s : String} {gs hs is ks : List Group} (hname : isName s = true)
      (hgs : Derives d .exp gs) (hhs : Derives d .exp hs) (his : Derives d .exp is)
      (hks : Derives d .block ks) :
      Derives d .stat (.word "for" :: .word s :: .sign "=" ::
        (gs ++ .sign "," :: (hs ++ .sign "," :: (is ++ [.block "do" ks]))))
  | forStat {ns gs hs : List Group} (hns : Derives d .names ns) (hgs : Derives d .exps gs)
      (hhs : Derives d .block hs) :
      Derives d .stat (.word "for" :: (ns ++ .word "in" :: (gs ++ [.block "do" hs])))
  | functionStat {gs hs : List Group} (hgs : Derives d .path gs) (hhs : Derives d .body hs) :
      Derives d .stat [.block "function" (gs ++ hs)]
  | pathName {s : String} (hs : isName s = true) : Derives d .path [.word s]
  | pathMember {s : String} {gs : List Group} (hs : isName s = true) (hgs : Derives d .path gs) :
      Derives d .path (.word s :: .sign "." :: gs)
  | pathMethod {s s' : String} (hs : isName s = true) (hs' : isName s' = true) :
      Derives d .path [.word s, .sign ":", .word s']
  | localFunction {s : String} {gs : List Group} (hs : isName s = true) (hgs : Derives d .body gs) :
      Derives d .stat [.word "local", .block "function" (.word s :: gs)]
  | localNames {gs : List Group} (hgs : Derives d .names gs) : Derives d .stat (.word "local" :: gs)
  | localValues {gs hs : List Group} (hgs : Derives d .names gs) (hhs : Derives d .exps hs) :
      Derives d .stat (.word "local" :: (gs ++ .sign "=" :: hs))
  | label {s : String} (hd : d ≠ .lua51) (hs : isName s = true) :
      Derives d .stat [.sign "::", .word s, .sign "::"]
  | jump {s : String} (hd : d ≠ .lua51) (hs : isName s = true) : Derives d .stat [.word "goto", .word s]
  | breakStat (hd : d = .lua52 ∨ d = .lua53) : Derives d .stat [.word "break"]
  | emptyStat (hd : d = .lua52 ∨ d = .lua53) : Derives d .stat [.sign ";"]
  -- Blocks.
  | returnNone : Derives d .last [.word "return"]
  | returnSome {gs : List Group} (hgs : Derives d .exps gs) : Derives d .last (.word "return" :: gs)
  | lastBreak (hd : d = .lua51 ∨ d = .luaJit) : Derives d .last [.word "break"]
  | noStats : Derives d .block []
  | lastStat {gs : List Group} (hgs : Derives d .last gs) : Derives d .block gs
  | lastStatEnded {gs : List Group} (hgs : Derives d .last gs) : Derives d .block (gs ++ [.sign ";"])
  | moreStats {gs hs : List Group} (hgs : Derives d .stat gs) (hhs : Derives d .block hs) :
      Derives d .block (gs ++ hs)
  | moreStatsEnded {gs hs : List Group} (hgs : Derives d .stat gs) (hhs : Derives d .block hs) :
      Derives d .block (gs ++ .sign ";" :: hs)
  | oneBranch {gs hs : List Group} (hgs : Derives d .exp gs) (hhs : Derives d .block hs) :
      Derives d .branches (gs ++ .word "then" :: hs)
  | elseBranch {gs hs ks : List Group} (hgs : Derives d .exp gs) (hhs : Derives d .block hs)
      (hks : Derives d .block ks) :
      Derives d .branches (gs ++ .word "then" :: (hs ++ .word "else" :: ks))
  | moreBranches {gs hs ks : List Group} (hgs : Derives d .exp gs) (hhs : Derives d .block hs)
      (hks : Derives d .branches ks) :
      Derives d .branches (gs ++ .word "then" :: (hs ++ .word "elseif" :: ks))

/-- Whether a text is a Lua script of a dialect. -/
def IsChunk (d : Dialect) (text : String) : Prop :=
  ∃ gs, solidGroups? text = some gs ∧ Derives d .block gs

/-! ### Groups that are no statement -/

/-- Whether some groups are neither nothing nor a single group in parentheses. -/
def IsNoParen (gs : List Group) : Prop :=
  gs ≠ [] ∧ ∀ hs, gs ≠ [.parens hs]

theorem isNoParen_append_cons {gs : List Group} (hgs : gs ≠ []) (g : Group) (hs : List Group) :
    IsNoParen (gs ++ g :: hs) := by
  refine ⟨by simp, fun ks heq => ?_⟩
  have hlength := congrArg List.length heq
  have hpos := List.length_pos_of_ne_nil hgs
  simp at hlength
  omega

theorem isNoParen_token (t : Token) (gs : List Group) : IsNoParen (.token t :: gs) :=
  ⟨nofun, fun ks heq => by cases (List.cons.inj heq).1⟩

theorem isNoParen_bracket {o : Token} (ho : o.kind = .word) (inside : List Group) (c : Token)
    (gs : List Group) : IsNoParen (.bracket o inside c :: gs) := by
  refine ⟨nofun, fun ks heq => ?_⟩
  have hopening := (Group.bracket.inj (List.cons.inj heq).1).1
  rw [hopening] at ho
  cases ho

/-- What is known of the groups of some forms: a call is put together from two parts, and no statement
is a single group in parentheses. -/
def Form.Shaped (gs : List Group) : Form → Prop
  | .prefixed | .var | .vars | .args => gs ≠ []
  | .call => 2 ≤ gs.length
  | .stat => IsNoParen gs
  | .last => ∃ s rest, gs = .word s :: rest
  | .block => ∀ hs, gs ≠ [.parens hs]
  | _ => True

theorem Derives.shaped {d : Dialect} {form : Form} {gs : List Group} (h : Derives d form gs) :
    form.Shaped gs := by
  induction h with
  | paren | name | noArgs | someArgs | tableArg | stringArg => exact List.cons_ne_nil _ _
  | ofVar _ ih | oneVar _ ih => exact ih
  | ofCall _ ih => exact List.ne_nil_of_length_pos (Nat.lt_of_lt_of_le Nat.zero_lt_two ih)
  | moreVars _ _ ih _ | index _ _ ih _ | member _ _ ih => exact (isNoParen_append_cons ih _ _).1
  | callOf _ _ ihgs ihhs =>
    have hgs := List.length_pos_of_ne_nil ihgs
    have hhs := List.length_pos_of_ne_nil ihhs
    rw [Form.Shaped, List.length_append]
    omega
  | methodOf _ _ _ _ _ =>
    simp only [Form.Shaped, List.length_append, List.length_cons]
    omega
  | assign _ _ ih _ => exact isNoParen_append_cons ih _ _
  | callStat _ ih =>
    refine ⟨List.ne_nil_of_length_pos (Nat.lt_of_lt_of_le Nat.zero_lt_two ih), ?_⟩
    rintro hs rfl
    cases Nat.le_of_succ_le_succ ih
  | doStat | ifStat | functionStat | repeatStat => exact isNoParen_bracket rfl _ _ _
  | whileStat | countStat | stepStat | forStat | localFunction | localNames | localValues | jump
  | breakStat | label | emptyStat => exact isNoParen_token _ _
  | returnNone | returnSome | lastBreak => exact ⟨_, _, rfl⟩
  | noStats => exact nofun
  | lastStat _ ih | lastStatEnded _ ih =>
    obtain ⟨s, rest, rfl⟩ := ih
    exact (isNoParen_token _ _).2
  | @moreStats gs hs _ _ ih _ =>
    cases hs with
    | nil =>
      rw [List.append_nil]
      exact ih.2
    | cons h hs => exact (isNoParen_append_cons ih.1 h hs).2
  | moreStatsEnded _ _ ih _ => exact (isNoParen_append_cons ih.1 _ _).2
  | _ => trivial

end LuaSnippet.Lua
