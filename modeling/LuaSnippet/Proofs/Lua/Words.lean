import LuaSnippet.Proofs.Lua.Outside
import LuaSnippet.Proofs.Lua.Phrase
import LuaSnippet.Proofs.Lua.Balance

/-!
# Words of printed Lua

A numeral may hold several words side by side: a point and a sign are no parts of words. All other
words of a printed tree are tokens of their own. So as long as the numbers of a tree hold no word that
opens or closes a block, the words of its text that do are the ends of its blocks
(`filter_words_flatMap_seen`), and every block that is opened is closed (`isBalanced_blocksOf`).
-/

namespace LuaSnippet.Lua

/-! ### Tame words -/

/-- Whether characters end as a word does, and have no words that open or close a block but
themselves. -/
def IsTame (cs : List Char) : Prop :=
  endsWord (cs.map some) = true ∧
    ∀ w ∈ words (cs.map some), String.ofList w ∈ blockWords → w = cs

theorem isTame_of_isWord {s : String} (hs : isWord s = true) : IsTame s.toList := by
  obtain ⟨hne, hall⟩ := isWord_iff.mp hs
  have hall : ∀ c ∈ s.toList, isWordChar c = true := by simpa [isWordChar] using hall
  refine ⟨?_, fun w hw _ => ?_⟩
  · rw [endsWord, List.getLast?_map, List.getLast?_eq_some_getLast hne]
    exact hall _ (List.getLast_mem hne)
  · rw [words_map_some hne hall] at hw
    exact List.mem_singleton.mp hw

/-- Whether a numeral ends as a word does, and has no words that open or close a block. -/
def IsTameNumeral (text : String) : Prop :=
  endsWord (text.toList.map some) = true ∧
    ∀ w ∈ words (text.toList.map some), String.ofList w ∉ blockWords

theorem IsTameNumeral.isTame {text : String} (h : IsTameNumeral text) : IsTame text.toList :=
  ⟨h.1, fun w hw hblock => absurd hblock (h.2 w hw)⟩

theorem IsTameNumeral.member {text key : String} (h : IsTameNumeral text)
    (hkey : isName key = true) : IsTameNumeral (text ++ "." ++ key) := by
  obtain ⟨hends, hwords⟩ := isTame_of_isWord (isWord_of_isName hkey)
  have hlist : (text ++ "." ++ key).toList.map some =
      text.toList.map some ++ (some '.' :: key.toList.map some) := by simp
  have hne : key.toList.map some ≠ [] := by
    rintro hnil
    rw [hnil] at hends
    cases hends
  constructor
  · rw [hlist, endsWord, List.getLast?_append_of_ne_nil _ (by simp),
      List.getLast?_cons_of_ne_nil hne]
    exact hends
  · rw [hlist, words_append fun _ => rfl, words_cons_of_not rfl]
    intro w hw
    rcases List.mem_append.mp hw with hw | hw
    · exact h.2 w hw
    · intro hblock
      have hkeywords : ∀ s ∈ blockWords, s ∈ keywords := by decide
      rw [hwords w hw hblock, String.ofList_toList] at hblock
      exact (isName_iff.mp hkey).1 (hkeywords _ hblock)

/-! ### Tame groups -/

def Token.IsTame (t : Token) : Prop :=
  t.kind = .word → Lua.IsTame t.chars

/-- Whether all words among the tokens of some groups are tame. -/
def AllTame (gs : List Group) : Prop :=
  ∀ t ∈ tokensOf gs, t.IsTame

theorem allTame_token {t : Token} (ht : t.IsTame) : AllTame [.token t] :=
  List.forall_mem_singleton.mpr ht

theorem allTame_bracket {o c : Token} {gs : List Group} (ho : o.IsTame) (hc : c.IsTame)
    (hgs : AllTame gs) : AllTame [.bracket o gs c] := by
  simpa [AllTame, tokensOf, Group.tokens, or_imp, forall_and, ho, hc] using hgs

/-- **The words of groups that are composed are tame**, if their numerals are. -/
theorem Composed.allTame {ss : List String} {gs : List Group}
    (h : Composed IsTameNumeral ss gs) : AllTame gs := by
  induction h with
  | nil => exact List.forall_mem_nil _
  | append _ _ hgs hhs =>
    rw [AllTame, tokensOf_append]
    exact List.forall_mem_append.mpr ⟨hgs, hhs⟩
  | word hword _ => exact allTame_token fun _ => isTame_of_isWord hword
  | numeral he hs =>
    have hnumeral := Expr.of_numeral? (P := IsTameNumeral) (fun _ _ => IsTameNumeral.member) he hs
    exact allTame_token fun _ => hnumeral.isTame
  | sign | blank | text => exact allTame_token nofun
  | index => exact allTame_bracket nofun nofun (allTame_token nofun)
  | parens _ ih | braces _ ih => exact allTame_bracket nofun nofun ih
  | block hkeyword _ ih =>
    have hwords : ∀ w ∈ ["function", "do", "if"], isWord w = true := by decide
    have hend : isWord "end" = true := by decide
    exact allTame_bracket (fun _ => isTame_of_isWord (hwords _ hkeyword))
      (fun _ => isTame_of_isWord hend) ih

/-! ### Words that open or close a block -/

def opensBlock (w : List Char) : Bool :=
  ["function", "if", "do"].contains (String.ofList w)

def closesBlock (w : List Char) : Bool :=
  String.ofList w = "end"

def isBlockWord (w : List Char) : Bool :=
  opensBlock w || closesBlock w

theorem exists_of_isBlockWord {w : List Char} (hw : isBlockWord w = true) :
    ∃ s ∈ ["function", "if", "do", "end"], w = s.toList := by
  refine ⟨String.ofList w, ?_, String.toList_ofList.symm⟩
  have hcases : (String.ofList w = "function" ∨ String.ofList w = "if" ∨ String.ofList w = "do") ∨
      String.ofList w = "end" := by
    simpa [isBlockWord, opensBlock, closesBlock] using hw
  simpa [or_assoc] using hcases

/-- Some words open and close blocks: none is closed before it is opened, and each is closed. -/
structure IsBalanced (ws : List (List Char)) : Prop where
  opened : ∀ before, before <+: ws → before.countP closesBlock ≤ before.countP opensBlock
  closed : ws.countP closesBlock = ws.countP opensBlock

theorem isBalanced_nil : IsBalanced [] where
  opened := by
    intro before hbefore
    rw [List.prefix_nil.mp hbefore]
    exact le_rfl
  closed := rfl

theorem IsBalanced.append {ws vs : List (List Char)} (hws : IsBalanced ws) (hvs : IsBalanced vs) :
    IsBalanced (ws ++ vs) where
  opened := by
    intro before hbefore
    rcases List.prefix_or_prefix_of_prefix hbefore (List.prefix_append ws vs) with h | ⟨mid, rfl⟩
    · exact hws.opened before h
    · rw [List.countP_append, List.countP_append, hws.closed]
      exact Nat.add_le_add_left (hvs.opened mid ((List.prefix_append_right_inj ws).mp hbefore)) _
  closed := by
    rw [List.countP_append, List.countP_append, hws.closed, hvs.closed]

theorem closesBlock_of_opensBlock {w : List Char} (hw : opensBlock w = true) :
    closesBlock w = false := by
  have hopeners : ∀ s ∈ ["function", "if", "do"], s ≠ "end" := by decide
  simpa [closesBlock] using hopeners _ (List.contains_iff_mem.mp hw)

theorem IsBalanced.block {o c : List Char} {ws : List (List Char)} (hws : IsBalanced ws)
    (ho : opensBlock o = true) (hc : closesBlock c = true) : IsBalanced (o :: (ws ++ [c])) := by
  have ho' := closesBlock_of_opensBlock ho
  have hc' : opensBlock c = false := by
    by_contra hopens
    rw [closesBlock_of_opensBlock (Bool.not_eq_false _ |>.mp hopens)] at hc
    cases hc
  constructor
  · intro before hbefore
    rcases List.prefix_cons_iff.mp hbefore with rfl | ⟨before, rfl, h⟩
    · exact le_rfl
    · rw [List.countP_cons_of_neg (by simp [ho']), List.countP_cons_of_pos ho]
      rcases List.prefix_concat_iff.mp h with rfl | h
      · simp [hc, hc', hws.closed]
      · exact (hws.opened before h).trans (Nat.le_succ _)
  · simp [ho, ho', hc, hc', hws.closed]

/-- Words that neither open nor close a block do not count. -/
theorem isBalanced_of_filter {ws : List (List Char)} (h : IsBalanced (ws.filter isBlockWord)) :
    IsBalanced ws := by
  have hcloses (vs : List (List Char)) :
      (vs.filter isBlockWord).countP closesBlock = vs.countP closesBlock := by
    rw [List.countP_filter]
    refine List.countP_congr fun w _ => ?_
    simp +contextual [isBlockWord]
  have hopens (vs : List (List Char)) :
      (vs.filter isBlockWord).countP opensBlock = vs.countP opensBlock := by
    rw [List.countP_filter]
    refine List.countP_congr fun w _ => ?_
    simp +contextual [isBlockWord]
  constructor
  · intro before hbefore
    rw [← hcloses, ← hopens]
    exact h.opened _ (hbefore.filter _)
  · rw [← hcloses, ← hopens]
    exact h.closed

/-! ### The blocks of groups -/

/-- A token as a word that opens or closes a block, if it is one. -/
def Token.blockWords (t : Token) : List (List Char) :=
  if t.kind = .word ∧ isBlockWord t.chars = true then [t.chars] else []

mutual

/-- The words that open and close the blocks of a group. A token that stands for itself is none. -/
def Group.blocks : Group → List (List Char)
  | .token _ => []
  | .bracket opening inside closing =>
    opening.blockWords ++ (blocksOf inside ++ closing.blockWords)

/-- The words that open and close the blocks of some groups. -/
def blocksOf : List Group → List (List Char)
  | [] => []
  | g :: gs => g.blocks ++ blocksOf gs

end

theorem blockWords_of_balanced {t : Token} (ht : (Group.token t).Balanced) : t.blockWords = [] := by
  have hwords : ∀ s ∈ ["function", "if", "do", "end"],
      (Token.word s.toList).closing? ≠ none ∨ (Token.word s.toList).closes = true := by decide
  refine if_neg fun ⟨hkind, hblock⟩ => ?_
  obtain ⟨kind, chars⟩ := t
  obtain rfl : kind = .word := hkind
  obtain ⟨s, hs, rfl⟩ := exists_of_isBlockWord hblock
  rcases hwords s hs with hopen | hclose
  · exact hopen ht.1
  · exact absurd (ht.2.symm.trans hclose) (by simp)

mutual

theorem Group.flatMap_blockWords : ∀ g : Group, g.Balanced →
    g.tokens.flatMap Token.blockWords = g.blocks
  | .token t, hg => by
    rw [Group.tokens, List.flatMap_singleton, blockWords_of_balanced hg, Group.blocks]
  | .bracket o inside c, hg => by
    rw [Group.tokens, List.flatMap_cons, List.flatMap_append, flatMap_blockWords inside hg.2,
      List.flatMap_singleton, Group.blocks]

theorem flatMap_blockWords : ∀ gs : List Group, AllBalanced gs →
    (tokensOf gs).flatMap Token.blockWords = blocksOf gs
  | [], _ => rfl
  | g :: gs, hgs => by
    rw [tokensOf, List.flatMap_append, g.flatMap_blockWords hgs.1, flatMap_blockWords gs hgs.2,
      blocksOf]

end

theorem blockWords_of_closing? {o c : Token} (h : o.closing? = some c) :
    (o.blockWords = [] ∧ c.blockWords = []) ∨
      (o.blockWords = [o.chars] ∧ c.blockWords = [c.chars] ∧ opensBlock o.chars = true ∧
        closesBlock c.chars = true) := by
  unfold Token.closing? at h
  obtain ⟨p, hp, rfl⟩ := Option.map_eq_some_iff.mp h
  have hfound : p.1 = o := by simpa using List.find?_some hp
  have hpairs : ∀ p ∈ Token.pairs, (p.1.blockWords = [] ∧ p.2.blockWords = []) ∨
      (p.1.blockWords = [p.1.chars] ∧ p.2.blockWords = [p.2.chars] ∧ opensBlock p.1.chars = true ∧
        closesBlock p.2.chars = true) := by decide
  rw [← hfound]
  exact hpairs p (List.mem_of_find?_eq_some hp)

mutual

theorem Group.isBalanced_blocks : ∀ g : Group, g.Balanced → IsBalanced g.blocks
  | .token _, _ => isBalanced_nil
  | .bracket o inside c, hg => by
    have hinside := isBalanced_blocksOf inside hg.2
    rw [Group.blocks]
    rcases blockWords_of_closing? hg.1 with ⟨ho, hc⟩ | ⟨ho, hc, hopens, hcloses⟩
    · rw [ho, hc, List.nil_append, List.append_nil]
      exact hinside
    · rw [ho, hc]
      exact hinside.block hopens hcloses

/-- **Every block that balanced groups open is closed.** -/
theorem isBalanced_blocksOf : ∀ gs : List Group, AllBalanced gs → IsBalanced (blocksOf gs)
  | [], _ => isBalanced_nil
  | g :: gs, hgs => (g.isBalanced_blocks hgs.1).append (isBalanced_blocksOf gs hgs.2)

end

/-! ### The blocks of a text -/

theorem filter_words_seen {t : Token} (ht : t.Valid) (htame : t.IsTame) :
    (words t.seen).filter isBlockWord = t.blockWords := by
  by_cases hkind : t.kind = .word
  · obtain ⟨kind, chars⟩ := t
    obtain rfl : kind = .word := hkind
    obtain ⟨-, hwords⟩ := htame rfl
    rw [Token.seen_of_not_isText rfl]
    by_cases hblock : isBlockWord chars = true
    · have hword : ∀ s ∈ ["function", "if", "do", "end"], words (s.toList.map some) = [s.toList] := by
        decide
      obtain ⟨s, hs, rfl⟩ := exists_of_isBlockWord hblock
      rw [hword s hs, Token.blockWords, if_pos ⟨rfl, hblock⟩]
      exact List.filter_cons_of_pos hblock
    · rw [Token.blockWords, if_neg fun h => hblock h.2, List.filter_eq_nil_iff]
      intro w hw hwblock
      have hmem : ∀ s ∈ ["function", "if", "do", "end"], s ∈ blockWords := by decide
      obtain ⟨s, hs, hws⟩ := exists_of_isBlockWord hwblock
      have heq := hwords w hw (by rw [hws, String.ofList_toList]; exact hmem s hs)
      rw [heq] at hwblock
      exact hblock hwblock
  · rw [words_eq_nil (ht.not_isWordChar hkind), Token.blockWords, if_neg fun h => hkind h.1]
    rfl

/-- **The words of a text that open or close a block are the ends of its blocks**, if it is put
together from balanced groups whose words are tame. -/
theorem filter_words_flatMap_seen {gs : List Group} (hgs : Legible gs) (hbalanced : AllBalanced gs)
    (htame : AllTame gs) :
    (words ((tokensOf gs).flatMap Token.seen)).filter isBlockWord = blocksOf gs := by
  rw [words_flatMap_seen hgs, List.filter_flatMap, ← flatMap_blockWords gs hbalanced]
  exact List.flatMap_congr fun t ht => filter_words_seen (hgs.1 t ht) (htame t ht)

/-! ### Printed texts -/

/-- Groups of which every string literal is a quoted text, as they are printed. -/
structure IsPrinted (gs : List Group) : Prop where
  legible : Legible gs
  balanced : AllBalanced gs
  tame : AllTame gs
  texts : ∀ t ∈ tokensOf gs, t.isText = true → ∃ value, t = Token.text value

theorem IsPrinted.of_composed {ss : List String} {gs : List Group} (hlegible : Legible gs)
    (h : Composed IsNumeral ss gs) (htame : Composed IsTameNumeral ss gs) : IsPrinted gs where
  legible := hlegible
  balanced := h.allBalanced
  tame := htame.allTame
  texts := by
    intro t ht hkind
    have hmem : t ∈ textsOf gs := List.mem_filter.mpr ⟨ht, hkind⟩
    rw [h.textsOf_eq] at hmem
    obtain ⟨value, -, rfl⟩ := List.mem_map.mp hmem
    exact ⟨value, rfl⟩

theorem isPrinted_stmtsGroups {newLine : String} (hline : IsLineEnd newLine) (depth : Nat)
    {ss : List Stmt} (hss : StmtsPrintable ss)
    (hnumbers : (Phrase.block ss).NumbersAre IsTameNumeral) :
    IsPrinted (stmtsGroups newLine depth ss) := by
  have hnumerals : (Phrase.block ss).NumbersAre IsNumeral := Phrase.Printable.numbersAre hss
  have hlegible := (legible_stmtsGroups_append hline depth ss hss []).mpr legible_nil
  rw [List.append_nil] at hlegible
  exact .of_composed hlegible (composed_stmtsGroups newLine depth ss hss hnumerals)
    (composed_stmtsGroups newLine depth ss hss hnumbers)

theorem IsPrinted.isPlain {gs : List Group} (hgs : IsPrinted gs) : ∀ t ∈ tokensOf gs, t.IsPlain := by
  intro t ht
  refine ⟨hgs.texts t ht, fun hkind => ?_⟩
  have hnot : t.isText = false := by rw [Token.isText, hkind]
  rw [Token.seen_of_not_isText hnot]
  exact (hgs.tame t ht hkind).1

/-- **What is printed is contained**: outside of its string literals, all of which are closed on their
lines, there are only ASCII characters, and no two neighbours open a comment or a long bracket. -/
theorem IsPrinted.contained {gs : List Group} (hgs : IsPrinted gs) :
    ∃ cs, outside? (charsOf gs) = some cs ∧ (∀ c, some c ∈ cs → c.toNat < 128) ∧
      ∀ o ∈ openings, ¬ o.map some <:+: cs := by
  refine ⟨_, outside?_flatMap hgs.legible.1 hgs.isPlain, fun c hc => ?_, fun o ho hwithin => ?_⟩
  · obtain ⟨t, ht, hct⟩ := List.mem_flatMap.mp hc
    cases hkind : t.isText with
    | true =>
      rw [Token.seen_of_isText hkind] at hct
      cases List.eq_of_mem_replicate hct
    | false =>
      rw [Token.seen_of_not_isText hkind] at hct
      obtain ⟨d, hd, heq⟩ := List.mem_map.mp hct
      obtain rfl := Option.some.inj heq
      exact ((hgs.legible.1 t ht).ascii hkind d hd).1
  · have hlength : ∀ o ∈ openings, o.length = 2 := by decide
    match o, hlength o ho with
    | [a, b], _ =>
      obtain ⟨before, behind, hseen⟩ := hwithin
      have hchain := isChain_flatMap_seen hgs.legible hgs.isPlain
      rw [← hseen] at hchain
      have hharmless : Harmless (some a) (some b) :=
        List.isChain_pair.mp hchain.left_of_append.right_of_append
      exact hharmless (List.mem_map.mpr ⟨[a, b], ho, rfl⟩)

/-- Whether a text has its string literals closed on their lines, and outside of them some words that
open and close blocks, in this order and balanced. -/
def HasBlocks (text : String) (blocks : List (List Char)) : Prop :=
  ∃ cs, outside? text.toList = some cs ∧ IsBalanced (words cs) ∧
    (words cs).filter isBlockWord = blocks

/-- **What is printed has the blocks of its groups.** -/
theorem IsPrinted.hasBlocks {gs : List Group} (hgs : IsPrinted gs) {text : String}
    (htext : text.toList = charsOf gs) : HasBlocks text (blocksOf gs) := by
  have hblocks := filter_words_flatMap_seen hgs.legible hgs.balanced hgs.tame
  refine ⟨_, by rw [htext]; exact outside?_flatMap hgs.legible.1 hgs.isPlain, ?_, hblocks⟩
  refine isBalanced_of_filter ?_
  rw [hblocks]
  exact isBalanced_blocksOf gs hgs.balanced

theorem hasBlocks_name {name : String} (hname : isName name = true) : HasBlocks name [] := by
  have hprinted : IsPrinted [.word name] :=
    .of_composed (legible_word (isWord_of_isName hname)) (.name hname) (.name hname)
  exact hprinted.hasBlocks (by simp)

theorem hasBlocks_index (key : String) : HasBlocks ("[" ++ quote key ++ "]") [] := by
  have hprinted : IsPrinted [.index key] :=
    .of_composed (legible_index key) (.index key) (.index key)
  exact hprinted.hasBlocks (by simp)

end LuaSnippet.Lua
