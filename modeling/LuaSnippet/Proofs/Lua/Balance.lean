import LuaSnippet.Proofs.Lua.Composed

/-!
# Printed Lua is balanced

The brackets and the blocks of a printed tree are those it was printed with: no name or numeral opens
or closes anything. Together with its tokens its groups are found again in its text
(`Expr.groups?_exprText`).
-/

namespace LuaSnippet.Lua

/-! ### Tokens that open and close nothing -/

/-- The tokens that open or close something. -/
def Token.ends : List Token := pairs.flatMap fun p => [p.1, p.2]

theorem balanced_token {t : Token} (ht : t ∉ Token.ends) : (Group.token t).Balanced := by
  have hpairs : ∀ p ∈ Token.pairs, p.1 ≠ t ∧ p.2 ≠ t := by
    intro p hp
    constructor
    · rintro rfl
      exact ht (List.mem_flatMap.mpr ⟨p, hp, by simp⟩)
    · rintro rfl
      exact ht (List.mem_flatMap.mpr ⟨p, hp, by simp⟩)
  constructor
  · rw [Token.closing?, Option.map_eq_none_iff, List.find?_eq_none]
    intro p hp
    simpa using (hpairs p hp).1
  · rw [Token.closes, List.any_eq_false]
    intro p hp
    simpa using (hpairs p hp).2

theorem balanced_word {s : String} (hs : s ∉ blockWords) : (Group.word s).Balanced := by
  have hends : ∀ t ∈ Token.ends, t.kind = .word → String.ofList t.chars ∈ blockWords := by decide
  refine balanced_token fun hmem => hs ?_
  simpa [Token.word] using hends _ hmem rfl

theorem balanced_sign {s : String} (hs : s ∉ bracketSigns) : (Group.sign s).Balanced := by
  have hends : ∀ t ∈ Token.ends, t.kind = .sign → String.ofList t.chars ∈ bracketSigns := by decide
  refine balanced_token fun hmem => hs ?_
  simpa [Token.sign] using hends _ hmem rfl

theorem balanced_text (value : String) : (Group.token (Token.text value)).Balanced := by
  have hends : ∀ t ∈ Token.ends, t.kind ≠ .text .closed := by decide
  exact balanced_token fun hmem => hends _ hmem rfl

theorem balanced_blank (c : Char) : (Group.token (Token.blank c)).Balanced := by
  have hends : ∀ t ∈ Token.ends, t.kind ≠ .blank := by decide
  exact balanced_token fun hmem => hends _ hmem rfl

theorem IsNumeral.notMem_blockWords {text : String} (htext : IsNumeral text) :
    text ∉ blockWords := by
  have hwords : ∀ w ∈ blockWords, isNumeral w.toList = false := by decide
  intro hmem
  have hfalse := hwords text hmem
  rw [htext.1] at hfalse
  exact absurd hfalse (by simp)

/-! ### Printed trees are balanced -/

theorem allBalanced_bracket {o c : Token} {gs : List Group} (hclosing : o.closing? = some c)
    (hgs : AllBalanced gs) : AllBalanced [.bracket o gs c] :=
  ⟨⟨hclosing, hgs⟩, trivial⟩

/-- **What opens in groups that are composed closes again.** -/
theorem Composed.allBalanced {ss : List String} {gs : List Group} (h : Composed IsNumeral ss gs) :
    AllBalanced gs := by
  induction h with
  | nil => trivial
  | append _ _ hgs hhs => exact allBalanced_append.mpr ⟨hgs, hhs⟩
  | word _ hs => exact ⟨balanced_word hs, trivial⟩
  | numeral he hs =>
    have hnumeral := Expr.of_numeral? (fun _ _ => IsNumeral.member) he hs
    exact ⟨balanced_word hnumeral.notMem_blockWords, trivial⟩
  | sign hs => exact ⟨balanced_sign hs, trivial⟩
  | blank c => exact ⟨balanced_blank c, trivial⟩
  | text value => exact ⟨balanced_text value, trivial⟩
  | index key => exact allBalanced_bracket (by decide) ⟨balanced_text key, trivial⟩
  | parens _ ih => exact allBalanced_bracket (by decide) ih
  | braces _ ih => exact allBalanced_bracket (by decide) ih
  | block hkeyword _ ih =>
    have hclosing : ∀ w ∈ ["function", "do", "if"],
        (Token.word w.toList).closing? = some (Token.word "end".toList) := by decide
    exact allBalanced_bracket (hclosing _ hkeyword) ih

theorem Expr.allBalanced (newLine : String) (depth : Nat) {e : Expr} (he : e.Printable) :
    AllBalanced (e.groups newLine depth) :=
  (e.composed newLine depth he (Phrase.Printable.numbersAre (x := .expr e) he)).allBalanced

theorem allBalanced_stmtsGroups (newLine : String) (depth : Nat) {ss : List Stmt}
    (hss : StmtsPrintable ss) : AllBalanced (stmtsGroups newLine depth ss) :=
  (composed_stmtsGroups newLine depth ss hss
    (Phrase.Printable.numbersAre (x := .block ss) hss)).allBalanced

/-- **The groups of a printed expression are found again in its text.** -/
theorem Expr.groups?_exprText {newLine : String} {depth : Nat} (hline : IsLineEnd newLine)
    {e : Expr} (he : e.Printable) :
    (tokens? (exprText newLine depth e).toList).bind groups? = some (e.groups newLine depth) := by
  obtain ⟨hvalid, hchain⟩ := e.legible hline depth he
  rw [← e.charsOf_groups, charsOf, tokens?_flatMap hvalid hchain, Option.bind_some,
    groups?_tokensOf (Expr.allBalanced newLine depth he)]

end LuaSnippet.Lua
