import LuaSnippet.Script.Rule.Body
import LuaSnippet.Proofs.Script.Made

/-!
# Well-formed syntax

What holds of every tree that was read from a text: names and numbers are spelled as the grammar
says, and what is called, has members or is marked as present is no operation. Pieces that are made
from well-formed pieces are well-formed (`Piece.wellFormed_make`).
-/

namespace LuaSnippet.Script

open Peg (Cursor)

/-! ### Phrases and what they consist of -/

/-- An expression or a statement. -/
inductive Phrase where
  | expr (e : Expr)
  | stmt (s : Stmt)

namespace Phrase

/-- The expressions and statements that a phrase is put together from. -/
def parts : Phrase → List Phrase
  | expr (.array elements _) => elements.map fun a => expr a.value
  | expr (.object fields _) => fields.map fun f => expr f.value
  | expr (.call callee args _) => expr callee :: args.map fun a => expr a.value
  | expr (.member inner _) | expr (.nonNull inner) | expr (.paren inner _)
  | expr (.unary _ inner _) | expr (.arrow _ inner _) => [expr inner]
  | expr (.binary _ lhs rhs) => [expr lhs, expr rhs]
  | expr (.closure _ body _) | stmt (.function _ _ body _) | stmt (.block body _) => body.map stmt
  | expr (.number _ _) | expr (.string _ _) | expr (.bool _ _) | expr (.absent _)
  | expr (.ident _) => []
  | stmt (.bind _ _ value _) | stmt (.result value _) => value.toList.map expr
  | stmt (.assign target value _) => [expr target, expr value]
  | stmt (.forOf _ iterable body _) => [expr iterable, stmt body]
  | stmt (.cond test whenTrue whenFalse _) =>
    expr test :: stmt whenTrue :: whenFalse.toList.map stmt
  | stmt (.expr e) => [expr e]
  | stmt (.declare _ _) | stmt (.typeOnly _) | stmt (.empty _) => []

/-- Whether a phrase is another one, or stands anywhere within it. -/
inductive Within (x : Phrase) : Phrase → Prop where
  | refl : Within x x
  | part {y z} (hz : z ∈ y.parts) (h : Within x z) : Within x y

end Phrase

/-! ### Well-formed phrases -/

/-- Whether a text is spelled as a name. -/
def IsName (s : String) : Prop :=
  ∃ c cs, s.toList = c :: cs ∧ Rule.startsName c = true ∧ ∀ d ∈ cs, Rule.continuesName d = true

/-- Whether some characters are digits to base ten, at least one. -/
def AreDigits (cs : List Char) : Prop := cs ≠ [] ∧ ∀ c ∈ cs, c.isDigit = true

/-- Whether some characters are an exponent of a number. -/
def AreExponent (cs : List Char) : Prop :=
  ∃ mark sign digits, cs = mark :: (sign ++ digits) ∧ (mark = 'e' ∨ mark = 'E') ∧
    (sign = [] ∨ sign = ['+'] ∨ sign = ['-']) ∧ AreDigits digits

/-- Whether a text is spelled as a number: digits to base sixteen behind their mark, or digits to base
ten with a fraction and an exponent or without. -/
def IsNumber (s : String) : Prop :=
  (∃ mark digits, s.toList = '0' :: mark :: digits ∧ (mark = 'x' ∨ mark = 'X') ∧
    digits ≠ [] ∧ ∀ c ∈ digits, Rule.isHexDigit c = true) ∨
  (∃ whole fraction exponent, s.toList = whole ++ (fraction ++ exponent) ∧ AreDigits whole ∧
    (fraction = [] ∨ ∃ digits, fraction = '.' :: digits ∧ AreDigits digits) ∧
    (exponent = [] ∨ AreExponent exponent))

/-- Whether an expression is no operation that is written with an operator. -/
def Expr.isOperand : Expr → Bool
  | .unary _ _ _ | .binary _ _ _ => false
  | _ => true

/-- Whether an expression is a name or a member. -/
def Expr.isPlace : Expr → Bool
  | .ident _ | .member _ _ => true
  | _ => false

namespace Phrase

/-- Whether the names, the number, the operands or the place of a phrase itself are such. -/
def IsSound : Phrase → Prop
  | expr (.number text _) => IsNumber text
  | expr (.ident id) => IsName id.name
  | expr (.call inner _ _) | expr (.member inner _) | expr (.nonNull inner) =>
    inner.isOperand = true
  | expr (.arrow params _ _) | expr (.closure params _ _) => ∀ p ∈ params, IsName p.name
  | stmt (.function name params _ _) => IsName name.name ∧ ∀ p ∈ params, IsName p.name
  | stmt (.bind _ b _ _) | stmt (.forOf b _ _ _) => ∀ id ∈ b.names, IsName id.name
  | stmt (.assign target _ _) => target.isPlace = true
  | _ => True

/-- Whether a phrase is sound with everything within it. -/
inductive WellFormed : Phrase → Prop where
  | mk {x : Phrase} (h : x.IsSound) (hparts : ∀ y ∈ x.parts, WellFormed y) : WellFormed x

theorem WellFormed.isSound {x : Phrase} (h : x.WellFormed) : x.IsSound := by
  cases h with
  | mk h _ => exact h

theorem WellFormed.of_mem_parts {x y : Phrase} (h : x.WellFormed) (hy : y ∈ x.parts) :
    y.WellFormed := by
  cases h with
  | mk _ hparts => exact hparts y hy

theorem WellFormed.of_one {x y : Phrase} (hx : x.IsSound) (hparts : x.parts = [y])
    (hy : y.WellFormed) : x.WellFormed := by
  refine .mk hx fun z hz => ?_
  rw [hparts] at hz
  rw [List.mem_singleton.mp hz]
  exact hy

theorem WellFormed.of_two {x y z : Phrase} (hx : x.IsSound) (hparts : x.parts = [y, z])
    (hy : y.WellFormed) (hz : z.WellFormed) : x.WellFormed := by
  refine .mk hx ?_
  rw [hparts]
  simp [hy, hz]

theorem WellFormed.of_within {x y : Phrase} (hx : x.WellFormed) (h : y.Within x) :
    y.WellFormed := by
  induction h with
  | refl => exact hx
  | part hz _ ih => exact ih (hx.of_mem_parts hz)

end Phrase

abbrev Expr.WellFormed (e : Expr) : Prop := (Phrase.expr e).WellFormed

abbrev Stmt.WellFormed (s : Stmt) : Prop := (Phrase.stmt s).WellFormed

/-! ### Chains -/

def Suffix.WellFormed : Suffix → Prop
  | .call args _ => ∀ a ∈ args, a.value.WellFormed
  | .member _ | .nonNull => True

theorem wellFormed_apply {e : Expr} (he : e.WellFormed) (hop : e.isOperand = true) {s : Suffix}
    (hs : s.WellFormed) : (s.apply e).WellFormed ∧ (s.apply e).isOperand = true := by
  refine ⟨.mk ?_ ?_, ?_⟩
  · cases s <;> exact hop
  · cases s with
    | call args stop =>
      intro y hy
      rcases List.mem_cons.mp hy with rfl | hy
      · exact he
      · obtain ⟨a, ha, rfl⟩ := List.mem_map.mp hy
        exact hs a ha
    | member | nonNull => exact List.forall_mem_singleton.mpr he
  · cases s <;> rfl

theorem wellFormed_binary {op : BinaryOp} {lhs rhs : Expr} :
    (Expr.binary op lhs rhs).WellFormed ↔ lhs.WellFormed ∧ rhs.WellFormed := by
  constructor
  · intro h
    exact ⟨h.of_mem_parts (by simp [Phrase.parts]), h.of_mem_parts (by simp [Phrase.parts])⟩
  · rintro ⟨hlhs, hrhs⟩
    exact .of_two trivial rfl hlhs hrhs

/-- What is called or has a member is no operation, and this is kept while suffixes are added. -/
theorem wellFormed_builds :
    Piece.Builds (fun e => e.WellFormed ∧ e.isOperand = true) Expr.WellFormed Suffix.WellFormed
      fun _ => True where
  apply he hs := wellFormed_apply he.1 he.2 hs
  bare he := he.1
  sign _ he := .of_one trivial rfl he
  binary := wellFormed_binary

/-! ### Pieces -/

def Piece.WellFormed : Piece → Prop
  | .name id | .prop id => IsName id.name
  | .param p => IsName p.name
  | .params ps => ∀ p ∈ ps, IsName p.name
  | .pattern names => ∀ id ∈ names, IsName id.name
  | .stmt s => s.WellFormed
  | .block body _ => ∀ s ∈ body, s.WellFormed
  | .target e => e.WellFormed ∧ e.isPlace = true
  | .expr e => e.WellFormed
  | .suffix s => s.WellFormed
  | .arg a => a.value.WellFormed
  | .field f => f.value.WellFormed
  | _ => True

namespace Piece

theorem wellFormed_primary? {p : Piece} (hp : p.WellFormed) {e : Expr} (h : p.primary? = some e) :
    e.WellFormed := by
  cases p with
  | expr e' =>
    obtain rfl : e' = e := by simpa [primary?] using h
    exact hp
  | name id =>
    obtain rfl : .ident id = e := by simpa [primary?] using h
    exact .mk hp (by simp [Phrase.parts])
  | string value span =>
    obtain rfl : .string value span = e := by simpa [primary?] using h
    exact .mk trivial (by simp [Phrase.parts])
  | _ => simp [primary?] at h

/-! ### Made pieces -/

theorem wellFormed_expr? (p : Piece) (e : Expr) (h : p.expr? = some e) (hp : p.WellFormed) :
    e.WellFormed := by
  cases p <;> simp_all [expr?, WellFormed]

theorem wellFormed_stmt? (p : Piece) (s : Stmt) (h : p.stmt? = some s) (hp : p.WellFormed) :
    s.WellFormed := by
  cases p with
  | stmt s' =>
    obtain rfl : s' = s := by simpa [stmt?] using h
    exact hp
  | block body span =>
    obtain rfl : .block body span = s := by simpa [stmt?] using h
    exact .mk trivial (List.forall_mem_map.mpr hp)
  | _ => simp [stmt?] at h

theorem wellFormed_block? (p : Piece) (b : List Stmt × Span) (h : p.block? = some b)
    (hp : p.WellFormed) : ∀ s ∈ b.1, s.WellFormed := by
  cases p with
  | block body span =>
    obtain rfl : (body, span) = b := by simpa [block?] using h
    exact hp
  | _ => simp [block?] at h

theorem wellFormed_arg? (p : Piece) (a : Arg) (h : p.arg? = some a) (hp : p.WellFormed) :
    a.value.WellFormed := by
  cases p <;> simp_all [arg?, WellFormed]

theorem wellFormed_field? (p : Piece) (f : Field) (h : p.field? = some f) (hp : p.WellFormed) :
    f.value.WellFormed := by
  cases p <;> simp_all [field?, WellFormed]

theorem wellFormed_target? (p : Piece) (e : Expr) (h : p.target? = some e) (hp : p.WellFormed) :
    e.WellFormed ∧ e.isPlace = true := by
  cases p <;> simp_all [target?, WellFormed]

theorem isName_name? (p : Piece) (id : Ident) (h : p.name? = some id) (hp : p.WellFormed) :
    IsName id.name := by
  cases p <;> simp_all [name?, WellFormed]

theorem isName_prop? (p : Piece) (id : Ident) (h : p.prop? = some id) (hp : p.WellFormed) :
    IsName id.name := by
  cases p <;> simp_all [prop?, WellFormed]

theorem isName_param? (p : Piece) (x : Param) (h : p.param? = some x) (hp : p.WellFormed) :
    IsName x.name := by
  cases p <;> simp_all [param?, WellFormed]

theorem isName_params? (p : Piece) (ps : List Param) (h : p.params? = some ps)
    (hp : p.WellFormed) : ∀ x ∈ ps, IsName x.name := by
  cases p <;> simp_all [params?, WellFormed]

theorem isName_binding? (p : Piece) (b : Binding) (h : p.binding? = some b) (hp : p.WellFormed) :
    ∀ id ∈ b.names, IsName id.name := by
  cases p with
  | name id =>
    obtain rfl : .single id = b := by simpa [binding?] using h
    exact List.forall_mem_singleton.mpr hp
  | pattern names =>
    obtain rfl : .pattern names = b := by simpa [binding?] using h
    exact hp
  | _ => simp [binding?] at h

theorem isName_paramsOf {parts : List Piece} (hparts : ∀ p ∈ parts, p.WellFormed) :
    ∀ x ∈ paramsOf parts, IsName x.name := by
  unfold paramsOf
  cases hfind : parts.findSome? params? with
  | none => simp
  | some ps => exact of_findSome? hparts isName_params? hfind

theorem wellFormed_members {ids : List Ident} {e : Expr} (he : e.WellFormed)
    (hplace : e.isPlace = true) :
    (ids.foldl .member e).WellFormed ∧ (ids.foldl .member e).isPlace = true := by
  induction ids generalizing e with
  | nil => exact ⟨he, hplace⟩
  | cons id ids ih =>
    have hop : e.isOperand = true := by
      cases e with
      | ident | member => rfl
      | _ => cases hplace
    exact ih (.of_one hop rfl he) rfl

/-- **The piece of a rule is well-formed** if the pieces within are, and if the rule matched a name, a
number or pieces without operations where it says so. -/
theorem wellFormed_make {rule : Rule} {start stop : Cursor} {parts : List Piece} {p : Piece}
    (hparts : ∀ p ∈ parts, p.WellFormed)
    (hname : rule = .ident ∨ rule = .propName → IsName (String.ofList (start.textTo stop)))
    (hnumber : rule = .numberLit → IsNumber (String.ofList (start.textTo stop)))
    (hoperand : rule = .expr → ∀ p ∈ parts, ∀ x, p.primary? = some x → x.isOperand = true)
    (h : make rule start stop parts = some p) : p.WellFormed := by
  have hexpr {e : Expr} (he : parts.findSome? expr? = some e) : e.WellFormed :=
    of_findSome? hparts wellFormed_expr? he
  have hstmts : ∀ s ∈ parts.filterMap stmt?, s.WellFormed := of_filterMap hparts wellFormed_stmt?
  have hvalue : ∀ e ∈ (parts.findSome? expr?).toList, e.WellFormed :=
    of_find_toList hparts wellFormed_expr?
  cases make_eq_some_iff.mp h with
  | ident => exact hname (.inl rfl)
  | propName => exact hname (.inr rfl)
  | program | block => exact hstmts
  | declareStmt | interfaceDecl | typeAlias | emptyStmt | trueLit | falseLit | absentLit =>
    exact .mk trivial nofun
  | functionDecl hid hb =>
    exact .mk ⟨of_findSome? hparts isName_name? hid, isName_paramsOf hparts⟩
      (List.forall_mem_map.mpr (of_findSome? hparts wellFormed_block? hb))
  | varStmt _ hb =>
    exact .mk (of_findSome? hparts isName_binding? hb) (List.forall_mem_map.mpr hvalue)
  | arrayPattern => exact of_filterMap hparts isName_name?
  | forOfStmt hb he hs =>
    exact .of_two (of_findSome? hparts isName_binding? hb) rfl (hexpr he)
      (of_findSome? hparts wellFormed_stmt? hs)
  | @ifStmt test t other htest hbranches =>
    have hbranch : ∀ y ∈ (t :: other.toList).map Phrase.stmt, y.WellFormed :=
      List.forall_mem_map.mpr (hbranches ▸ hstmts)
    exact .mk trivial (List.forall_mem_cons.mpr ⟨hexpr htest, hbranch⟩)
  | returnStmt => exact .mk trivial (List.forall_mem_map.mpr hvalue)
  | assignStmt ht he =>
    obtain ⟨htarget, hplace⟩ := of_findSome? hparts wellFormed_target? ht
    exact .of_two hplace rfl htarget (hexpr he)
  | assignTarget heq =>
    have hid : IsName _ := hparts (.name _) (by rw [heq]; exact List.mem_cons_self)
    exact wellFormed_members (.mk hid nofun) rfl
  | exprStmt he | parenExpr he => exact .of_one trivial rfl (hexpr he)
  | params => exact of_filterMap hparts isName_param?
  | param hid => exact of_findSome? hparts isName_prop? hid
  | expr hc =>
    refine holds_of_chain wellFormed_builds (fun p hp => ?_) hc
    refine ⟨fun e he => ⟨wellFormed_primary? (hparts p hp) he, hoperand rfl p hp e he⟩, ?_,
      fun _ _ _ => trivial⟩
    rintro s rfl
    exact hparts _ hp
  | callArgs => exact of_filterMap hparts wellFormed_arg?
  | plainArg _ he | spreadArg _ he => exact hexpr he
  | closure hb =>
    exact .mk (isName_paramsOf hparts)
      (List.forall_mem_map.mpr (of_findSome? hparts wellFormed_block? hb))
  | arrow _ he => exact .of_one (isName_paramsOf hparts) rfl (hexpr he)
  | bareParams hid => exact List.forall_mem_singleton.mpr (of_findSome? hparts isName_name? hid)
  | arrowParams => exact isName_paramsOf hparts
  | arrayLit => exact .mk trivial (List.forall_mem_map.mpr (of_filterMap hparts wellFormed_arg?))
  | objectLit =>
    exact .mk trivial (List.forall_mem_map.mpr (of_filterMap hparts wellFormed_field?))
  | shortProperty heq =>
    exact .mk (hparts (.name _) (by rw [heq]; exact List.mem_cons_self)) nofun
  | namedProperty heq | quotedProperty heq =>
    exact hparts (.expr _) (by rw [heq]; exact List.mem_cons_of_mem _ List.mem_cons_self)
  | numberLit => exact .mk (hnumber rfl) nofun
  | _ => trivial

theorem isOperand_of_make {rule : Rule} {start stop : Cursor} {parts : List Piece} {p : Piece}
    (hrule : rule ≠ .expr) (h : make rule start stop parts = some p) {e : Expr}
    (he : p.primary? = some e) : e.isOperand = true := by
  cases make_eq_some_iff.mp h with
  | expr => exact absurd rfl hrule
  | ident | closure | arrow | parenExpr | arrayLit | objectLit | numberLit | stringLit | trueLit
  | falseLit | absentLit =>
    obtain rfl := Option.some.inj he
    rfl
  | _ => cases he

end Piece

end LuaSnippet.Script
