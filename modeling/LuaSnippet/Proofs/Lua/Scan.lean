import LuaSnippet.Proofs.Lua.Grammar

/-!
# How far a statement of Lua goes

Whether a statement can go on with a token depends on little of what stands before: whether an
expression is to come or has come, and whether the last one can be called. A `Spot` says that much. The
spots are coarser than the grammar, but they miss nothing that it derives (`Derives.scanned`): where
no spot is left, no statement begins.
-/

namespace LuaSnippet.Lua

def Group.first : Group → Token
  | .token t => t
  | .bracket opening _ _ => opening

/-- A place within a statement. The mark `loop` says that the body of a loop is still to come. -/
inductive Spot where
  | start
  | value (loop : Bool)
  /-- Behind an expression, which ends with what can be called or not. -/
  | behind (callable loop : Bool)
  /-- Before the name of a member. -/
  | key (loop : Bool)
  | names (loop : Bool)
  | named (loop : Bool)
  | done
deriving DecidableEq

namespace Spot

/-- The keywords that statements start with, and the spots behind them. -/
def starters : List (String × Spot) :=
  [("local", names false), ("for", names true), ("while", value true), ("return", value false),
    ("repeat", value false), ("goto", names false), ("break", done), ("do", done), ("if", done),
    ("function", done)]

/-- The words that are values, or that values start with. -/
def valueWords : List String := ["nil", "false", "true", "function"]

/-- The signs behind a value with another value behind them. -/
def joints : List String :=
  ["+", "-", "*", "/", "^", "%", "..", "<", "<=", ">", ">=", "==", "~=", "//", "&", "~", "|", ">>",
    "<<", ",", "="]

def afterWord : Spot → String → Option Spot
  | start, s => if isName s then some (behind true false) else starters.lookup s
  | value loop, s =>
    if isName s then some (behind true loop)
    else if s = "not" then some (value loop)
    else if isNumeral s.toList || s ∈ valueWords then some (behind false loop)
    else none
  | behind _ loop, s =>
    if s ∈ ["and", "or"] then some (value loop) else if loop && s = "do" then some done else none
  | key loop, s => if isName s then some (behind true loop) else none
  | names loop, s =>
    if isName s then some (named loop) else if s = "function" then some done else none
  | named loop, s => if s = "in" then some (value loop) else none
  | done, _ => none

/-- The spot behind a sign, or behind the brackets that a sign opens. -/
def afterSign : Spot → String → Option Spot
  | start, s =>
    if s = "(" then some (behind true false)
    else if s = ";" then some done
    else if s = "::" then some (names false)
    else none
  | value loop, s =>
    if s = "(" then some (behind true loop)
    else if s ∈ ["\x7b", "..."] then some (behind false loop)
    else if s ∈ ["-", "#", "~"] then some (value loop)
    else none
  | behind callable loop, s =>
    if s ∈ joints then some (value loop)
    else if callable && s ∈ ["(", "[", "\x7b"] then some (behind true loop)
    else if callable && s ∈ [".", ":"] then some (key loop)
    else none
  | named loop, s =>
    if s = "," then some (names loop)
    else if s = "=" then some (value loop)
    else if s = "::" then some done
    else none
  | _, _ => none

def afterText : Spot → Option Spot
  | value loop => some (behind false loop)
  | behind true loop => some (behind true loop)
  | _ => none

def step (spot : Spot) (t : Token) : Option Spot :=
  match t.kind with
  | .word => spot.afterWord (String.ofList t.chars)
  | .sign => spot.afterSign (String.ofList t.chars)
  | .text _ => spot.afterText
  | .blank => none

end Spot

@[simp] theorem Spot.step_word (spot : Spot) (s : String) :
    spot.step (Token.word s.toList) = spot.afterWord s := by
  simp [Spot.step, Token.word]

@[simp] theorem Spot.step_sign (spot : Spot) (s : String) :
    spot.step (Token.sign s.toList) = spot.afterSign s := by
  simp [Spot.step, Token.sign]

def scan (spot : Spot) (gs : List Group) : Option Spot :=
  gs.foldlM (fun spot g => spot.step g.first) spot

section

variable {spot : Spot} {gs hs : List Group} {s : String}

@[simp] theorem scan_nil : scan spot [] = some spot := rfl

@[simp] theorem scan_append : scan spot (gs ++ hs) = (scan spot gs).bind (scan · hs) :=
  List.foldlM_append

theorem scan_cons (g : Group) : scan spot (g :: gs) = (spot.step g.first).bind (scan · gs) :=
  List.foldlM_cons

@[simp] theorem scan_word : scan spot (.word s :: gs) = (spot.afterWord s).bind (scan · gs) := by
  rw [scan_cons, Group.word, Group.first, Spot.step_word]

@[simp] theorem scan_sign : scan spot (.sign s :: gs) = (spot.afterSign s).bind (scan · gs) := by
  rw [scan_cons, Group.sign, Group.first, Spot.step_sign]

theorem scan_string {t : Token} (ht : t.kind = .text .closed) :
    scan spot (.token t :: gs) = spot.afterText.bind (scan · gs) := by
  rw [scan_cons, Group.first, Spot.step, ht]

@[simp] theorem scan_parens (inside : List Group) :
    scan spot (.parens inside :: gs) = (spot.afterSign "(").bind (scan · gs) := rfl

@[simp] theorem scan_braces (inside : List Group) :
    scan spot (.braces inside :: gs) = (spot.afterSign "\x7b").bind (scan · gs) := rfl

@[simp] theorem scan_indexed (inside : List Group) :
    scan spot (.indexed inside :: gs) = (spot.afterSign "[").bind (scan · gs) := rfl

@[simp] theorem scan_block (keyword : String) (inside : List Group) :
    scan spot (.block keyword inside :: gs) = (spot.afterWord keyword).bind (scan · gs) := by
  rw [scan_cons, Group.block, Group.first, Spot.step_word]

@[simp] theorem scan_repeated (inside : List Group) :
    scan spot (.repeated inside :: gs) = (spot.afterWord "repeat").bind (scan · gs) := rfl

/-! ### Words that are no names -/

theorem isName_eq_false_of_isNumeral (hs : isNumeral s.toList = true) : isName s = false := by
  rw [← Bool.not_eq_true]
  intro hname
  obtain ⟨c, cs, hchars, hdigit, hpoint⟩ := exists_cons_of_isName hname
  simp [hchars, isNumeral, hdigit, hpoint] at hs

theorem isNumeral_of_isNumberIn {d : Dialect} {cs : List Char} (hcs : IsNumberIn d cs) :
    isNumeral cs = true := by
  cases hcs with
  | hex => rfl
  | decimal hms _ =>
    cases hms with
    | @whole ds hne hds =>
      obtain ⟨c, cs, rfl⟩ := List.exists_cons_of_ne_nil hne
      simp [isNumeral, hds c (.head _)]
    | @pointed ds es _ hds _ =>
      cases ds with
      | nil => rfl
      | cons c ds => simp [isNumeral, hds c (.head _)]

namespace Spot

variable {loop : Bool}

/-! ### Steps -/

@[simp] theorem afterWord_start_name (hs : isName s = true) :
    start.afterWord s = some (behind true false) := by
  simp [afterWord, hs]

@[simp] theorem afterWord_value_name (hs : isName s = true) :
    (value loop).afterWord s = some (behind true loop) := by
  simp [afterWord, hs]

@[simp] theorem afterWord_key_name (hs : isName s = true) :
    (key loop).afterWord s = some (behind true loop) := by
  simp [afterWord, hs]

@[simp] theorem afterWord_names_name (hs : isName s = true) :
    (names loop).afterWord s = some (named loop) := by
  simp [afterWord, hs]

theorem afterWord_value_numeral (hs : isNumeral s.toList = true) :
    (value loop).afterWord s = some (behind false loop) := by
  have hne : s ≠ "not" := by
    rintro rfl
    exact absurd hs (by decide)
  simp [afterWord, isName_eq_false_of_isNumeral hs, hne, hs]

theorem afterWord_start_of_mem_starters {p : String × Spot} (hp : p ∈ starters) :
    start.afterWord p.1 = some p.2 := by
  have hall : ∀ p ∈ starters, start.afterWord p.1 = some p.2 := by decide
  exact hall p hp

theorem afterWord_value_of_mem_valueWords (hs : s ∈ valueWords) :
    (value loop).afterWord s = some (behind false loop) := by
  have hall : ∀ s ∈ valueWords, ∀ loop, (value loop).afterWord s = some (behind false loop) := by
    decide
  exact hall s hs loop

theorem step_of_mem_binaryOperators {d : Dialect} {op : Group} (hop : op ∈ binaryOperators d)
    (callable : Bool) : (behind callable loop).step op.first = some (value loop) := by
  have hall : ∀ op ∈ binaryOperators .lua53, ∀ callable loop,
      (behind callable loop).step op.first = some (value loop) := by
    decide
  refine hall op ?_ callable loop
  cases d with
  | lua53 => exact hop
  | _ => exact List.mem_append_left _ (by simpa [binaryOperators] using hop)

theorem step_of_mem_unaryOperators {d : Dialect} {op : Group} (hop : op ∈ unaryOperators d) :
    (value loop).step op.first = some (value loop) := by
  have hall : ∀ op ∈ unaryOperators .lua53, ∀ loop,
      (value loop).step op.first = some (value loop) := by
    decide
  refine hall op ?_ loop
  cases d with
  | lua53 => exact hop
  | _ => exact List.mem_append_left _ (by simpa [unaryOperators] using hop)

end Spot

/-! ### What is derived is scanned -/

/-- What is known of the spots that the groups of some forms lead to. -/
def Form.Scanned (gs : List Group) : Form → Prop
  | .exp | .exps => ∀ loop, ∃ callable, scan (.value loop) gs = some (.behind callable loop)
  | .prefixed | .var | .vars | .call =>
    scan .start gs = some (.behind true false) ∧
      ∀ loop, scan (.value loop) gs = some (.behind true loop)
  | .args => ∀ loop, scan (.behind true loop) gs = some (.behind true loop)
  | .names => ∀ loop, scan (.names loop) gs = some (.named loop)
  | .stat | .last => (scan .start gs).isSome = true
  | _ => True

variable {d : Dialect} {callable loop : Bool}

theorem scanned_append {hs : List Group} (hgs : Form.prefixed.Scanned gs)
    (hhs : ∀ loop, scan (.behind true loop) hs = some (.behind true loop)) :
    Form.prefixed.Scanned (gs ++ hs) := by
  refine ⟨?_, fun loop => ?_⟩
  · rw [scan_append, hgs.1, Option.bind_some, hhs]
  · rw [scan_append, hgs.2 loop, Option.bind_some, hhs]

theorem scan_joint (hs : s ∈ Spot.joints) :
    scan (.behind callable loop) (.sign s :: gs) = scan (.value loop) gs := by
  rw [scan_sign, Spot.afterSign, if_pos hs, Option.bind_some]

theorem scan_starter {next : Spot} (hs : (s, next) ∈ Spot.starters) :
    scan .start (.word s :: gs) = scan next gs := by
  rw [scan_word, Spot.afterWord_start_of_mem_starters hs, Option.bind_some]

theorem scan_local : scan .start (.word "local" :: gs) = scan (.names false) gs :=
  scan_starter (by decide)

theorem scan_for : scan .start (.word "for" :: gs) = scan (.names true) gs :=
  scan_starter (by decide)

theorem scan_while : scan .start (.word "while" :: gs) = scan (.value true) gs :=
  scan_starter (by decide)

theorem scan_goto : scan .start (.word "goto" :: gs) = scan (.names false) gs :=
  scan_starter (by decide)

theorem scan_return : scan .start (.word "return" :: gs) = scan (.value false) gs :=
  scan_starter (by decide)

theorem scan_block_starter {inside : List Group} (hs : (s, Spot.done) ∈ Spot.starters) :
    scan .start [.block s inside] = some .done := by
  rw [scan_block, Spot.afterWord_start_of_mem_starters hs]
  rfl

theorem scan_loop {inside : List Group} (hgs : Form.exps.Scanned gs) :
    scan (.value true) (gs ++ [.block "do" inside]) = some .done := by
  obtain ⟨callable, hscan⟩ := hgs true
  rw [scan_append, hscan, Option.bind_some, scan_block]
  rfl

theorem scan_exp_joint (hgs : Form.exp.Scanned gs) (hjoint : s ∈ Spot.joints) :
    scan (.value loop) (gs ++ .sign s :: hs) = scan (.value loop) hs := by
  obtain ⟨callable, hscan⟩ := hgs loop
  rw [scan_append, hscan, Option.bind_some, scan_joint hjoint]

/-- **Whatever the grammar derives is scanned.** -/
theorem Derives.scanned {form : Form} (h : Derives d form gs) : form.Scanned gs := by
  induction h with
  -- Expressions.
  | @constant s hs =>
    intro loop
    have hvalue : s ∈ Spot.valueWords := List.mem_append_left ["function"] hs
    exact ⟨false, by rw [scan_word, Spot.afterWord_value_of_mem_valueWords hvalue]; rfl⟩
  | number hs =>
    intro loop
    have hnumeral := isNumeral_of_isNumberIn hs
    exact ⟨false, by rw [scan_word, Spot.afterWord_value_numeral hnumeral]; rfl⟩
  | string ht => exact fun loop => ⟨false, by rw [scan_string ht]; rfl⟩
  | dots => exact fun loop => ⟨false, rfl⟩
  | table _ _ => exact fun loop => ⟨false, rfl⟩
  | function _ _ =>
    intro loop
    have hvalue : "function" ∈ Spot.valueWords := by decide
    exact ⟨false, by rw [scan_block, Spot.afterWord_value_of_mem_valueWords hvalue]; rfl⟩
  | prefixed _ ih => exact fun loop => ⟨true, ih.2 loop⟩
  | unary hop _ ih =>
    intro loop
    rw [scan_cons, Spot.step_of_mem_unaryOperators hop]
    exact ih loop
  | binary hop _ _ ihgs ihhs =>
    intro loop
    obtain ⟨callable, hscan⟩ := ihgs loop
    rw [scan_append, hscan, Option.bind_some, scan_cons, Spot.step_of_mem_binaryOperators hop]
    exact ihhs loop
  | oneExp _ ih | ofVar _ ih | ofCall _ ih | oneVar _ ih => exact ih
  | moreExps _ _ ihgs ihhs =>
    intro loop
    rw [scan_exp_joint ihgs (by decide)]
    exact ihhs loop
  | paren _ _ => exact ⟨rfl, fun _ => rfl⟩
  | name hs => exact ⟨by simp [hs], fun _ => by simp [hs]⟩
  | index _ _ ih _ => exact scanned_append ih fun _ => rfl
  | member _ hs ih => exact scanned_append ih fun _ => by simp [Spot.afterSign, Spot.joints, hs]
  | moreVars _ _ ihgs ihhs =>
    refine ⟨?_, fun loop => ?_⟩
    · rw [scan_append, ihgs.1, Option.bind_some, scan_joint (by decide)]
      exact ihhs.2 false
    · rw [scan_append, ihgs.2 loop, Option.bind_some, scan_joint (by decide)]
      exact ihhs.2 loop
  | callOf _ _ ihgs ihhs => exact scanned_append ihgs ihhs
  | methodOf _ hname _ ihgs ihhs =>
    exact scanned_append ihgs fun loop => by simp [Spot.afterSign, Spot.joints, hname, ihhs loop]
  | noArgs | someArgs | tableArg => exact fun _ => rfl
  | stringArg ht => exact fun _ => by rw [scan_string ht]; rfl
  -- Names.
  | oneName hs => exact fun _ => by simp [hs]
  | moreNames hs _ ih => exact fun loop => by simp [hs, Spot.afterSign, ih loop]
  -- Statements.
  | assign _ _ ihgs ihhs =>
    obtain ⟨callable, hscan⟩ := ihhs false
    rw [Form.Scanned, scan_append, ihgs.1, Option.bind_some, scan_joint (by decide), hscan]
    rfl
  | callStat _ ih =>
    rw [Form.Scanned, ih.1]
    rfl
  | doStat | ifStat | functionStat =>
    rw [Form.Scanned, scan_block_starter (by decide)]
    rfl
  | whileStat _ _ ih _ =>
    rw [Form.Scanned, scan_while, scan_loop ih]
    rfl
  | repeatStat _ _ _ ih =>
    obtain ⟨callable, hscan⟩ := ih false
    have hstep : Spot.start.afterWord "repeat" = some (.value false) := by decide
    rw [Form.Scanned, scan_repeated, hstep, Option.bind_some, hscan]
    rfl
  | countStat hname _ _ _ ihgs ihhs _ =>
    have hstep : (Spot.named true).afterSign "=" = some (.value true) := by decide
    rw [Form.Scanned, scan_for, scan_word,
      Spot.afterWord_names_name hname, Option.bind_some, scan_sign, hstep, Option.bind_some,
      scan_exp_joint ihgs (by decide), scan_loop ihhs]
    rfl
  | stepStat hname _ _ _ _ ihgs ihhs ihis _ =>
    have hstep : (Spot.named true).afterSign "=" = some (.value true) := by decide
    rw [Form.Scanned, scan_for, scan_word,
      Spot.afterWord_names_name hname, Option.bind_some, scan_sign, hstep, Option.bind_some,
      scan_exp_joint ihgs (by decide), scan_exp_joint ihhs (by decide), scan_loop ihis]
    rfl
  | forStat _ _ _ ihns ihgs _ =>
    have hstep : (Spot.named true).afterWord "in" = some (.value true) := by decide
    rw [Form.Scanned, scan_for, scan_append, ihns true,
      Option.bind_some, scan_word, hstep, Option.bind_some, scan_loop ihgs]
    rfl
  | localFunction =>
    rw [Form.Scanned, scan_local, scan_block]
    rfl
  | localNames _ ih =>
    rw [Form.Scanned, scan_local, ih false]
    rfl
  | localValues _ _ ihgs ihhs =>
    obtain ⟨callable, hscan⟩ := ihhs false
    have hstep : (Spot.named false).afterSign "=" = some (.value false) := by decide
    rw [Form.Scanned, scan_local, scan_append, ihgs false,
      Option.bind_some, scan_sign, hstep, Option.bind_some, hscan]
    rfl
  | label _ hs => simp [Form.Scanned, Spot.afterSign, hs]
  | jump _ hs =>
    rw [Form.Scanned, scan_goto, scan_word,
      Spot.afterWord_names_name hs]
    rfl
  | breakStat | emptyStat | returnNone | lastBreak => rfl
  | returnSome _ ih =>
    obtain ⟨callable, hscan⟩ := ih false
    rw [Form.Scanned, scan_return, hscan]
    rfl
  | _ => trivial

end

end LuaSnippet.Lua
