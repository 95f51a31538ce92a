import LuaSnippet.Proofs.Lua.Token

/-!
# Brackets and blocks of Lua

What opens in a Lua text closes again: brackets, and the blocks between a keyword and its `end`. The
tokens of a text form groups by that, each with everything between its two ends, without looking at
what stands there.

`groups?_tokensOf`: groups are found again in their tokens.
-/

namespace LuaSnippet.Lua

/-- A token, or what stands between an opening and a closing one. -/
inductive Group where
  | token (t : Token)
  | bracket (opening : Token) (inside : List Group) (closing : Token)

namespace Token

def pairs : List (Token × Token) :=
  [(sign ['('], sign [')']), (sign ['['], sign [']']), (sign ['\x7b'], sign ['\x7d']),
    (word "function".toList, word "end".toList), (word "do".toList, word "end".toList),
    (word "if".toList, word "end".toList), (word "repeat".toList, word "until".toList)]

/-- The token that closes what a token opens, if it opens anything. -/
def closing? (t : Token) : Option Token :=
  (pairs.find? fun p => p.1 = t).map (·.2)

def closes (t : Token) : Bool :=
  pairs.any fun p => p.2 = t

end Token

mutual

def Group.tokens : Group → List Token
  | .token t => [t]
  | .bracket opening inside closing => opening :: (tokensOf inside ++ [closing])

def tokensOf : List Group → List Token
  | [] => []
  | g :: gs => g.tokens ++ tokensOf gs

end

def charsOf (gs : List Group) : List Char :=
  (tokensOf gs).flatMap (·.chars)

@[simp] theorem tokensOf_append (gs hs : List Group) :
    tokensOf (gs ++ hs) = tokensOf gs ++ tokensOf hs := by
  induction gs with
  | nil => rfl
  | cons g gs ih => rw [List.cons_append, tokensOf, tokensOf, ih, List.append_assoc]

@[simp] theorem charsOf_append (gs hs : List Group) :
    charsOf (gs ++ hs) = charsOf gs ++ charsOf hs := by
  rw [charsOf, tokensOf_append, List.flatMap_append]
  rfl

/-- Groups while they are formed: those at hand, and for everything open the token that opened it and
the groups before it, the innermost first. -/
structure Grouping where
  groups : List Group
  opened : List (Token × List Group)

def Grouping.step (s : Grouping) (t : Token) : Option Grouping :=
  if (t.closing?).isSome then some ⟨[], (t, s.groups) :: s.opened⟩
  else if t.closes then
    match s.opened with
    | (o, before) :: opened =>
      if o.closing? = some t then some ⟨before ++ [.bracket o s.groups t], opened⟩ else none
    | [] => none
  else some ⟨s.groups ++ [.token t], s.opened⟩

/-- The groups that some tokens form, if everything that opens closes again. -/
def groups? (ts : List Token) : Option (List Group) :=
  (ts.foldlM Grouping.step ⟨[], []⟩).bind fun s => if s.opened.isEmpty then some s.groups else none

/-! ### Finding groups again -/

mutual

/-- Whether the tokens of a group are what they are taken for: a single one neither opens nor closes
anything, and the two ends of a group belong together. -/
def Group.Balanced : Group → Prop
  | .token t => t.closing? = none ∧ t.closes = false
  | .bracket opening inside closing => opening.closing? = some closing ∧ AllBalanced inside

def AllBalanced : List Group → Prop
  | [] => True
  | g :: gs => g.Balanced ∧ AllBalanced gs

end

@[simp] theorem allBalanced_append {gs hs : List Group} :
    AllBalanced (gs ++ hs) ↔ AllBalanced gs ∧ AllBalanced hs := by
  induction gs with
  | nil => simp [AllBalanced]
  | cons g gs ih => rw [List.cons_append, AllBalanced, AllBalanced, ih, and_assoc]

theorem closing_of_closing? {o c : Token} (h : o.closing? = some c) :
    c.closing? = none ∧ c.closes = true := by
  unfold Token.closing? at h
  obtain ⟨p, hp, rfl⟩ := Option.map_eq_some_iff.mp h
  have hmem := List.mem_of_find?_eq_some hp
  have hpairs : ∀ p ∈ Token.pairs, p.2.closing? = none ∧ p.2.closes = true := by decide
  exact hpairs p hmem

mutual

theorem Group.foldlM_step : ∀ (g : Group), g.Balanced → ∀ gs opened,
    g.tokens.foldlM Grouping.step ⟨gs, opened⟩ = some ⟨gs ++ [g], opened⟩
  | .token t, hg, gs, opened => by
    obtain ⟨hopen, hclose⟩ := hg
    rw [Group.tokens, List.foldlM_cons, Grouping.step, hopen]
    simp [hclose]
  | .bracket o inside c, hg, gs, opened => by
    obtain ⟨hopen, hinside⟩ := hg
    obtain ⟨hnone, hcloses⟩ := closing_of_closing? hopen
    rw [Group.tokens, List.foldlM_cons, Grouping.step, hopen]
    simp only [Option.isSome_some, if_true, Option.bind_eq_bind, Option.bind_some]
    rw [List.foldlM_append, foldlM_step_tokensOf inside hinside, Option.bind_eq_bind,
      Option.bind_some, List.foldlM_cons, Grouping.step, hnone]
    simp [hcloses, hopen]

theorem foldlM_step_tokensOf : ∀ (gs : List Group), AllBalanced gs → ∀ before opened,
    (tokensOf gs).foldlM Grouping.step ⟨before, opened⟩ = some ⟨before ++ gs, opened⟩
  | [], _, before, opened => by simp [tokensOf]
  | g :: gs, hgs, before, opened => by
    rw [tokensOf, List.foldlM_append, g.foldlM_step hgs.1, Option.bind_eq_bind, Option.bind_some,
      foldlM_step_tokensOf gs hgs.2]
    simp

end

/-- **Groups are found again in their tokens.** -/
theorem groups?_tokensOf {gs : List Group} (hgs : AllBalanced gs) :
    groups? (tokensOf gs) = some gs := by
  unfold groups?
  rw [foldlM_step_tokensOf gs hgs]
  rfl

end LuaSnippet.Lua
