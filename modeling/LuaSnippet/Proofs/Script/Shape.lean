import LuaSnippet.Script.Rule.Body
import LuaSnippet.Proofs.Peg.Shape

/-!
# The nodes within a node

A tree is put together from the nodes of a match by their place: a conditional takes the first node
for its condition, the next for its branch, and a further one for the other. `Rule.Fits` says for each
rule which nodes have to stand within a node of it, and where. Every node that the grammar gives is
such (`fits_of_derived`).
-/

namespace LuaSnippet.Script

open Peg (Node Pattern)

namespace Rule

/-! ### Kinds of rules -/

def isKeyword : Rule → Bool
  | keyword _ => true
  | _ => false

def isStatement : Rule → Bool
  | declareStmt | interfaceDecl | typeAlias | functionDecl | varStmt | forOfStmt | ifStmt
  | returnStmt | block | emptyStmt | assignStmt | exprStmt => true
  | _ => false

def isDeclaration : Rule → Bool
  | fnSignature | varSignature | spaceDecl => true
  | _ => false

def isBinding : Rule → Bool
  | arrayPattern | ident => true
  | _ => false

def isPrimary : Rule → Bool
  | arrowFn | parenExpr | arrayLit | objectLit | numberLit | stringLit | trueLit | falseLit
  | absentLit | ident => true
  | _ => false

def isSign : Rule → Bool
  | unaryOp _ => true
  | _ => false

def isSuffix : Rule → Bool
  | callArgs | member | nonNull => true
  | _ => false

def introducesVariable : Rule → Bool
  | keyword .const | keyword .let | keyword .var => true
  | _ => false

/-! ### What a node needs within it -/

def significant (rs : List Rule) : List Rule := rs.filter fun r => !r.isKeyword

/-- Signs, a primary expression, and what may stand behind one. -/
def IsOperand (rs : List Rule) : Prop :=
  ∃ signs r suffixes, rs = signs ++ r :: suffixes ∧ (∀ s ∈ signs, s.isSign = true) ∧
    r.isPrimary = true ∧ ∀ s ∈ suffixes, s.isSuffix = true

/-- A binary operator and an operand. -/
def IsLink (rs : List Rule) : Prop :=
  ∃ op o, rs = binaryOp op :: o ∧ IsOperand o

/-- Whether the rules of the nodes within a node are those that a tree of its rule is put together
from, each at its place. -/
def Fits : Rule → List Rule → Prop
  | program, rs => ∃ ss, rs = ss ++ [finish] ∧ ∀ s ∈ ss, s.isStatement = true
  | block, rs => ∀ s ∈ rs, s.isStatement = true
  | declareStmt, rs => ∃ d, significant rs = [d] ∧ d.isDeclaration = true
  | fnSignature, rs => ∃ rest, significant rs = propName :: rest
  | varSignature, rs => rs = [varKind, propName, type]
  | spaceDecl, rs => ∃ ds, significant rs = ident :: ds ∧ ∀ d ∈ ds, d.isDeclaration = true
  | functionDecl, rs => ∃ rest, significant rs = ident :: rest ∧ block ∈ rest
  | varStmt, rs => ∃ b rest, rs = varKind :: b :: rest ∧ b.isBinding = true
  | varKind, rs => ∃ k, rs = [k] ∧ k.introducesVariable = true
  | arrayPattern, rs => ∀ r ∈ rs, r = ident
  | forOfStmt, rs => ∃ b s, significant rs = [varKind, b, expr, s] ∧ b.isBinding = true ∧
      s.isStatement = true
  | ifStmt, rs => ∃ s others, significant rs = expr :: s :: others ∧ s.isStatement = true ∧
      (others = [] ∨ ∃ s', others = [s'] ∧ s'.isStatement = true)
  | returnStmt, rs => significant rs = [] ∨ significant rs = [expr]
  | assignStmt, rs => rs = [assignTarget, expr]
  | assignTarget, rs => ∃ members, rs = ident :: members ∧ ∀ r ∈ members, r = propName
  | exprStmt, rs | parenExpr, rs => rs = [expr]
  | params, rs => ∀ r ∈ rs, r = param
  | param, rs => propName ∈ rs
  | returnType, rs => rs = [type]
  | expr, rs => ∃ o links, rs = o ++ List.flatten links ∧ IsOperand o ∧ ∀ l ∈ links, IsLink l
  | callArgs, rs | arrayLit, rs => ∀ r ∈ rs, r = arg
  | member, rs => rs = [propName]
  | arg, rs => rs = [expr] ∨ rs = [spread, expr]
  | arrowFn, rs => ∃ rest, rs = arrowParams :: rest ∧ (block ∈ rest ∨ expr ∈ rest)
  | arrowParams, rs => rs = [] ∨ rs = [params] ∨ rs = [ident]
  | objectLit, rs => ∀ r ∈ rs, r = property
  | property, rs => rs = [ident] ∨ rs = [propName, expr] ∨ rs = [stringLit, expr]
  | stringLit, rs => rs = [doubleQuoted] ∨ rs = [singleQuoted]
  | _, _ => True

/-! ### What the grammar gives -/

/-- What a call of a rule leaves: a node of the rule, or of one of those that it stands for. -/
def Leaves : Rule → List Rule → Prop
  | statement, rs => ∃ r, rs = [r] ∧ r.isStatement = true
  | primary, rs => ∃ r, rs = [r] ∧ r.isPrimary = true
  | typePrimary, _ => True
  | r, rs => rs = [r]

end Rule

open Rule

theorem shapes_grammar : grammar.Shapes Rule.Leaves where
  call r hr := by
    cases r with
    | statement | primary | typePrimary => exact absurd rfl hr
    | _ => rfl
  silent r rs hr h := by
    cases r with
    | statement =>
      rcases h with rfl | rfl | rfl | rfl | rfl | rfl | rfl | rfl | rfl | rfl | rfl | rfl <;>
        exact ⟨_, rfl, rfl⟩
    | primary =>
      rcases h with rfl | rfl | rfl | rfl | rfl | rfl | rfl | rfl | rfl | rfl <;>
        exact ⟨_, rfl, rfl⟩
    | typePrimary => trivial
    | _ => cases hr

/-! ### Every node fits -/

variable {rs : List Rule}

theorem leaves_iff {r : Rule} (hr : grammar.manner r ≠ .silent) : Rule.Leaves r rs ↔ rs = [r] := by
  cases r with
  | statement | primary | typePrimary => exact absurd rfl hr
  | _ => exact Iff.rfl

theorem forall_mem_of_leaves {P : Rule → Prop} {p : Pattern Rule}
    (happears : ∀ r ∈ p.calls, grammar.manner r ≠ .silent) (hp : ∀ r ∈ p.calls, P r)
    (h : p.Leaves Rule.Leaves rs) : ∀ x ∈ rs, P x := by
  refine h.forall_mem (P := P) fun r hr rs hrs x hx => ?_
  rw [(leaves_iff (happears r hr)).mp hrs] at hx
  rw [List.mem_singleton.mp hx]
  exact hp r hr

theorem isStatement_of_leaves (h : (Pattern.many (.call statement)).Leaves Rule.Leaves rs) :
    ∀ x ∈ rs, x.isStatement = true := by
  refine h.forall_mem (P := fun x => x.isStatement = true) fun r hr rs hrs x hx => ?_
  rw [Pattern.calls, Pattern.calls, List.mem_singleton] at hr
  subst hr
  obtain ⟨s, rfl, hs⟩ := hrs
  rw [List.mem_singleton.mp hx]
  exact hs

theorem isOperand_of_leaves (h : operand.Leaves Rule.Leaves rs) : IsOperand rs := by
  obtain ⟨signs, hsigns, _, ⟨_, ⟨r, rfl, hr⟩, suffixes, hsuffixes, rfl⟩, rfl⟩ := h
  exact ⟨signs, r, suffixes, rfl, forall_mem_of_leaves (by decide) (by decide) hsigns, hr,
    forall_mem_of_leaves (by decide) (by decide) hsuffixes⟩

theorem isLink_of_leaves
    (h : (Pattern.seq (.firstOf (.call (binaryOp .strictEq))
      (binaryOps.tail.map fun op => .call (binaryOp op))) operand).Leaves Rule.Leaves rs) :
    IsLink rs := by
  obtain ⟨xs, hsign, o, ho, rfl⟩ := h
  obtain ⟨b, hb, hxs⟩ := Pattern.leaves_firstOf.mp hsign
  have hop : ∃ op, b = .call (binaryOp op) := by
    rcases List.mem_cons.mp hb with rfl | hb
    · exact ⟨_, rfl⟩
    · obtain ⟨op, -, rfl⟩ := List.mem_map.mp hb
      exact ⟨op, rfl⟩
  obtain ⟨op, rfl⟩ := hop
  obtain rfl : xs = [binaryOp op] := hxs
  exact ⟨op, o, rfl, isOperand_of_leaves ho⟩

theorem significant_statement {s : Rule} (hs : s.isStatement = true) (rs : List Rule) :
    significant (s :: rs) = s :: significant rs := by
  cases s with
  | keyword => cases hs
  | _ => rfl

/-- **What the body of a rule leaves fits the rule.** -/
theorem fits_of_leaves {r : Rule} (hr : grammar.manner r ≠ .atomic)
    (h : (grammar.body r).Leaves Rule.Leaves rs) : r.Fits rs := by
  cases r with
  | program =>
    obtain ⟨_, rfl, _, ⟨ss, hss, _, rfl, rfl⟩, rfl⟩ := h
    exact ⟨ss, rfl, isStatement_of_leaves hss⟩
  | block =>
    obtain ⟨_, rfl, _, ⟨ss, hss, _, rfl, rfl⟩, rfl⟩ := h
    rw [List.nil_append, List.append_nil]
    exact isStatement_of_leaves hss
  | declareStmt =>
    obtain ⟨_, rfl, _, hd, rfl⟩ := h
    rcases hd with rfl | rfl | rfl <;> exact ⟨_, rfl, rfl⟩
  | fnSignature =>
    obtain ⟨_, rfl, _, ⟨_, rfl, rest, _, rfl⟩, rfl⟩ := h
    exact ⟨significant rest, rfl⟩
  | varSignature =>
    obtain ⟨_, rfl, _, ⟨_, rfl, _, ⟨_, rfl, _, ⟨_, rfl, _, hsemicolon, rfl⟩, rfl⟩, rfl⟩, rfl⟩ := h
    rcases hsemicolon with rfl | rfl <;> rfl
  | spaceDecl =>
    obtain ⟨_, rfl, _, ⟨_, rfl, _, ⟨_, rfl, _, ⟨ds, hds, _, rfl, rfl⟩, rfl⟩, rfl⟩, rfl⟩ := h
    have hall : ∀ d ∈ ds, d.isDeclaration = true :=
      forall_mem_of_leaves (by decide) (by decide) hds
    refine ⟨significant ds, ?_, fun d hd => hall d (List.mem_filter.mp hd |>.1)⟩
    simp [significant, isKeyword]
  | functionDecl =>
    obtain ⟨_, rfl, _, ⟨_, rfl, rest, hrest, rfl⟩, rfl⟩ := h
    refine ⟨significant rest, rfl, List.mem_filter.mpr ⟨?_, rfl⟩⟩
    obtain ⟨_, -, _, ⟨_, -, _, ⟨_, -, _, ⟨_, -, _, ⟨_, -, _, rfl, rfl⟩, rfl⟩, rfl⟩, rfl⟩, rfl⟩ := hrest
    simp
  | varStmt =>
    obtain ⟨_, rfl, _, ⟨_, hb, rest, -, rfl⟩, rfl⟩ := h
    rcases hb with rfl | rfl <;> exact ⟨_, rest, rfl, rfl⟩
  | varKind => rcases h with rfl | rfl | rfl <;> exact ⟨_, rfl, rfl⟩
  | arrayPattern => exact forall_mem_of_leaves (by decide) (by decide) h
  | forOfStmt =>
    obtain ⟨_, rfl, _, ⟨_, rfl, _, ⟨_, rfl, _, ⟨_, hb, _, ⟨_, rfl, _, ⟨_, rfl, _, ⟨_, rfl, _,
      ⟨s, rfl, hs⟩, rfl⟩, rfl⟩, rfl⟩, rfl⟩, rfl⟩, rfl⟩, rfl⟩ := h
    rcases hb with rfl | rfl
    · exact ⟨arrayPattern, s, congrArg (varKind :: arrayPattern :: expr :: ·)
        (significant_statement hs []), rfl, hs⟩
    · exact ⟨ident, s, congrArg (varKind :: ident :: expr :: ·) (significant_statement hs []), rfl, hs⟩
  | ifStmt =>
    obtain ⟨_, rfl, _, ⟨_, rfl, _, ⟨_, rfl, _, ⟨_, rfl, _, ⟨_, ⟨s, rfl, hs⟩, others, hothers, rfl⟩,
      rfl⟩, rfl⟩, rfl⟩, rfl⟩ := h
    refine ⟨s, significant others, congrArg (expr :: ·) (significant_statement hs others), hs, ?_⟩
    rcases hothers with rfl | ⟨_, rfl, _, ⟨s', rfl, hs'⟩, rfl⟩
    · exact .inl rfl
    · exact .inr ⟨s', significant_statement hs' [], hs'⟩
  | returnStmt =>
    obtain ⟨_, rfl, _, ⟨value, hvalue, _, hsemicolon, rfl⟩, rfl⟩ := h
    rcases hsemicolon with rfl | rfl <;> rcases hvalue with rfl | rfl
    · exact .inl rfl
    · exact .inr rfl
    · exact .inl rfl
    · exact .inr rfl
  | assignStmt =>
    obtain ⟨_, rfl, _, ⟨_, rfl, _, ⟨_, rfl, _, ⟨_, rfl, _, hsemicolon, rfl⟩, rfl⟩, rfl⟩, rfl⟩ := h
    rcases hsemicolon with rfl | rfl <;> rfl
  | assignTarget =>
    obtain ⟨_, rfl, members, hmembers, rfl⟩ := h
    exact ⟨members, rfl, forall_mem_of_leaves (by decide) (by decide) hmembers⟩
  | exprStmt =>
    obtain ⟨_, rfl, _, hsemicolon, rfl⟩ := h
    rcases hsemicolon with rfl | rfl <;> rfl
  | params => exact forall_mem_of_leaves (by decide) (by decide) h
  | param =>
    obtain ⟨_, -, _, ⟨_, rfl, _, -, rfl⟩, rfl⟩ := h
    simp [Fits]
  | returnType =>
    obtain ⟨_, rfl, _, rfl, rfl⟩ := h
    rfl
  | expr =>
    obtain ⟨o, ho, _, ⟨links, rfl, hlinks⟩, rfl⟩ := h
    exact ⟨o, links, rfl, isOperand_of_leaves ho, fun l hl => isLink_of_leaves (hlinks l hl)⟩
  | callArgs | arrayLit | objectLit => exact forall_mem_of_leaves (by decide) (by decide) h
  | member =>
    obtain ⟨_, rfl, _, rfl, rfl⟩ := h
    rfl
  | arg =>
    obtain ⟨_, hspread, _, rfl, rfl⟩ := h
    rcases hspread with rfl | rfl
    · exact .inl rfl
    · exact .inr rfl
  | arrowFn =>
    obtain ⟨_, rfl, _, ⟨_, -, _, ⟨_, -, _, hbody, rfl⟩, rfl⟩, rfl⟩ := h
    refine ⟨_, rfl, ?_⟩
    rcases hbody with rfl | rfl <;> simp
  | arrowParams =>
    rcases h with ⟨_, rfl, _, ⟨_, hparams, _, rfl, rfl⟩, rfl⟩ | rfl
    · rcases hparams with rfl | rfl
      · exact .inl rfl
      · exact .inr (.inl rfl)
    · exact .inr (.inr rfl)
  | parenExpr =>
    obtain ⟨_, rfl, _, ⟨_, rfl, _, rfl, rfl⟩, rfl⟩ := h
    rfl
  | property =>
    rcases h with ⟨_, hkey, _, ⟨_, rfl, _, rfl, rfl⟩, rfl⟩ | rfl
    · rcases hkey with rfl | rfl
      · exact .inr (.inl rfl)
      · exact .inr (.inr rfl)
    · exact .inl rfl
  | stringLit =>
    rcases h with ⟨_, rfl, _, ⟨_, rfl, _, rfl, rfl⟩, rfl⟩ | ⟨_, rfl, _, ⟨_, rfl, _, rfl, rfl⟩, rfl⟩
    · exact .inl rfl
    · exact .inr rfl
  | _ => trivial

theorem fits_of_derived {x : Node Rule} (hx : x.IsDerived grammar) :
    x.rule.Fits (x.children.map Node.rule) := by
  obtain ⟨r, start, stop, children⟩ := x
  by_cases hr : grammar.manner r = .atomic
  · show r.Fits (children.map Node.rule)
    cases r with
    | keyword | reserved | ident | propName | qualifiedName | nonNull | numberLit | doubleQuoted
    | singleQuoted | trueLit | falseLit | absentLit => trivial
    | _ => cases hr
  · exact fits_of_leaves hr (hx.leaves shapes_grammar hr)

end LuaSnippet.Script
