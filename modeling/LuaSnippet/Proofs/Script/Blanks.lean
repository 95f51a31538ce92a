import LuaSnippet.Proofs.Peg.Answer
import LuaSnippet.Proofs.Script.Segment
import LuaSnippet.Proofs.Script.Termination

/-!
# Blanks by rules

What may stand between two tokens is described by rules as well: white space, and comments of two
kinds, all matched character by character. Passing over blanks leads to the place to which these rules
lead (`answers_blanks`), and the rules are ranked like those of the language (`ranked_blankGrammar`).
-/

namespace LuaSnippet.Script

open Peg (Answers Context Cursor Grammar Look Pattern)

/-- A rule about what may stand between two tokens. -/
inductive BlankRule where
  /-- All that is passed over between two tokens. -/
  | blanks
  | whiteSpace
  | comment
  | lineComment
  | blockComment
deriving DecidableEq, Repr

namespace BlankRule

def lineEnd : Pattern BlankRule := .firstOf (.lit "\n") [.lit "\r\n", .lit "\r"]

/-- A character at which a part does not follow. -/
def charBefore (stop : Pattern BlankRule) : Pattern BlankRule :=
  .seq (.forbid stop) (.char fun _ => true)

def spacedComment : Pattern BlankRule := .seq (.call comment) (.many (.call whiteSpace))

def body : BlankRule → Pattern BlankRule
  | blanks => .seq (.many (.call whiteSpace)) (.many spacedComment)
  | whiteSpace => .firstOf (.lit " ") [.lit "\t", .lit "\r", .lit "\n"]
  | comment => .alt (.call lineComment) (.call blockComment)
  | lineComment => .seq (.lit "//") (.many (charBefore lineEnd))
  | blockComment => .inOrder (.lit "/*") [.many (charBefore (.lit "*/")), .lit "*/"]

def rank : BlankRule → Nat
  | blanks => 12
  | comment => 7
  | whiteSpace | lineComment | blockComment => 4

end BlankRule

/-- The grammar of what may stand between two tokens; within it nothing is passed over. -/
def blankGrammar : Grammar BlankRule where
  rules := [.blanks, .whiteSpace, .comment, .lineComment, .blockComment]
  manner _ := .silent
  body := BlankRule.body
  skip cur := cur

theorem ranked_blankGrammar : blankGrammar.Ranked (· = .blanks) BlankRule.rank 20 where
  skipsAhead cur := .refl cur
  nullable r := by cases r <;> decide
  bounded r := by cases r <;> decide
  falls r := by cases r <;> decide

namespace BlankRule

variable {look : Look} {a b : Pattern BlankRule} {cur mid stop : Cursor} {n : Nat} {c : Char}
  {cs : List Char}

/-! ### Where blank rules lead -/

/-- A part of the blanks leads from one place to another. -/
def Passes (look : Look) (p : Pattern BlankRule) (cur stop : Cursor) : Prop :=
  Answers blankGrammar ⟨.atomic, look⟩ p cur (some ([], stop))

/-- A part of the blanks is not found at a place. -/
def Lacks (look : Look) (p : Pattern BlankRule) (cur : Cursor) : Prop :=
  Answers blankGrammar ⟨.atomic, look⟩ p cur none

theorem Passes.word {w : List Char} (h : cur.take? w = some stop) :
    Passes look (.word w) cur stop := by
  have hword : Answers blankGrammar ⟨.atomic, look⟩ (.word w) cur ((cur.take? w).map ([], ·)) :=
    .word
  rwa [h] at hword

theorem Lacks.word {w : List Char} (h : cur.take? w = none) : Lacks look (.word w) cur := by
  have hword : Answers blankGrammar ⟨.atomic, look⟩ (.word w) cur ((cur.take? w).map ([], ·)) :=
    .word
  rwa [h] at hword

theorem Passes.seq (ha : Passes look a cur mid) (hb : Passes look b mid stop) :
    Passes look (.seq a b) cur stop :=
  Answers.seq ha hb

theorem Passes.call {r : BlankRule} (h : Passes look (body r) cur stop) :
    Passes look (.call r) cur stop :=
  .silent rfl h

theorem Lacks.call {r : BlankRule} (h : Lacks look (body r) cur) : Lacks look (.call r) cur :=
  .silent rfl h

theorem Passes.more (ha : Passes look a cur mid) (hmore : Passes look (.further a) mid stop) :
    Passes look (.further a) cur stop :=
  Answers.more ha hmore

theorem Lacks.further (ha : Lacks look a cur) : Passes look (.further a) cur cur :=
  .noMore ha

/-- Where nothing is passed over, the first round of a repetition is a round like the others. -/
theorem Passes.many (h : Passes look (.further a) cur stop) : Passes look (.many a) cur stop := by
  generalize hfound : some (([] : List (Peg.Node BlankRule)), stop) = found
  rw [Passes, hfound] at h ⊢
  cases h with
  | more ha hmore => exact .round ha hmore
  | noMore ha => exact .noRound ha

/-! ### White space -/

theorem passes_whiteSpace (hc : isSpace c = true) :
    Passes look (.call whiteSpace) ⟨n, c :: cs⟩ ⟨n + c.utf8Size, cs⟩ := by
  simp only [isSpace, Bool.or_eq_true, decide_eq_true_eq] at hc
  apply Passes.call
  obtain ((rfl | rfl) | rfl) | rfl := hc
  · exact .left (Passes.word rfl)
  · exact .right (Lacks.word rfl) (.left (Passes.word rfl))
  · exact .right (Lacks.word rfl) (.right (Lacks.word rfl) (.left (Passes.word rfl)))
  · exact .right (Lacks.word rfl) (.right (Lacks.word rfl) (.right (Lacks.word rfl)
      (Passes.word rfl)))

theorem lacks_word_cons {w : Char} {ws : List Char} (h : c ≠ w) :
    Lacks look (.word (w :: ws)) ⟨n, c :: cs⟩ :=
  Lacks.word (if_neg h)

theorem lacks_word_nil {w : Char} {ws : List Char} : Lacks look (.word (w :: ws)) ⟨n, []⟩ :=
  Lacks.word rfl

theorem lacks_whiteSpace (hc : isSpace c = false) : Lacks look (.call whiteSpace) ⟨n, c :: cs⟩ := by
  simp only [isSpace, Bool.or_eq_false_iff, decide_eq_false_iff_not] at hc
  exact Lacks.call (.right (lacks_word_cons hc.1.1.1) (.right (lacks_word_cons hc.1.1.2)
    (.right (lacks_word_cons hc.1.2) (lacks_word_cons hc.2))))

theorem lacks_whiteSpace_nil : Lacks look (.call whiteSpace) ⟨n, []⟩ :=
  Lacks.call (.right lacks_word_nil (.right lacks_word_nil (.right lacks_word_nil lacks_word_nil)))

/-! ### Comments -/

theorem Passes.forbid (h : Lacks look.inside a cur) : Passes look (.forbid a) cur cur := by
  have ha : Answers blankGrammar (Context.ahead ⟨.atomic, look⟩) a cur none := h
  exact Answers.forbid ha

theorem Lacks.forbid (h : Passes look.inside a cur mid) : Lacks look (.forbid a) cur := by
  have ha : Answers blankGrammar (Context.ahead ⟨.atomic, look⟩) a cur (some ([], mid)) := h
  exact Answers.forbid ha

theorem passes_charBefore (h : Lacks look.inside a ⟨n, c :: cs⟩) :
    Passes look (charBefore a) ⟨n, c :: cs⟩ ⟨n + c.utf8Size, cs⟩ := by
  have hchar : Passes look (.char fun _ => true) ⟨n, c :: cs⟩ ⟨n + c.utf8Size, cs⟩ := .char rfl
  exact (Passes.forbid h).seq hchar

theorem lacks_charBefore (h : Passes look.inside a cur mid) : Lacks look (charBefore a) cur :=
  .noSeq (Lacks.forbid h)

theorem lacks_charBefore_nil (h : Lacks look.inside a ⟨n, []⟩) :
    Lacks look (charBefore a) ⟨n, []⟩ := by
  have hchar : Lacks look (.char fun _ => true) ⟨n, []⟩ := .noChar rfl
  exact Answers.seq (Passes.forbid h) hchar

theorem passes_lineEnd (hc : isLineEnd c = true) :
    ∃ stop, Passes look lineEnd ⟨n, c :: cs⟩ stop := by
  simp only [isLineEnd, Bool.or_eq_true, decide_eq_true_eq] at hc
  obtain rfl | rfl := hc
  · exact ⟨_, .left (Passes.word rfl)⟩
  · cases hpair : Cursor.take? ⟨n, '\r' :: cs⟩ ['\r', '\n'] with
    | none => exact ⟨_, .right (Lacks.word rfl) (.right (Lacks.word hpair) (Passes.word rfl))⟩
    | some stop => exact ⟨stop, .right (Lacks.word rfl) (.left (Passes.word hpair))⟩

theorem lacks_lineEnd (hc : isLineEnd c = false) : Lacks look lineEnd ⟨n, c :: cs⟩ := by
  simp only [isLineEnd, Bool.or_eq_false_iff, decide_eq_false_iff_not] at hc
  exact .right (lacks_word_cons hc.1) (.right (lacks_word_cons hc.2) (lacks_word_cons hc.2))

theorem lacks_lineEnd_nil : Lacks look lineEnd ⟨n, []⟩ :=
  .right lacks_word_nil (.right lacks_word_nil lacks_word_nil)

theorem passes_lineComment
    (h : Passes look (.further (charBefore lineEnd)) ⟨n + 2, cs⟩ stop) :
    Passes look (.call comment) ⟨n, '/' :: '/' :: cs⟩ stop :=
  Passes.call (.left (Passes.call ((Passes.word rfl).seq h.many)))

theorem passes_blockComment (h : Passes look (.further (charBefore (.lit "*/"))) ⟨n + 2, cs⟩ mid)
    (hclose : mid.take? ['*', '/'] = some stop) :
    Passes look (.call comment) ⟨n, '/' :: '*' :: cs⟩ stop :=
  Passes.call (.right (Lacks.call (.noSeq (Lacks.word rfl)))
    (Passes.call ((Passes.word rfl).seq (h.many.seq (Passes.word hclose)))))

theorem lacks_unclosed (h : Passes look (.further (charBefore (.lit "*/"))) ⟨n + 2, cs⟩ mid)
    (hclose : mid.take? ['*', '/'] = none) :
    Lacks look spacedComment ⟨n, '/' :: '*' :: cs⟩ := by
  have hrest : Lacks look (.seq (.many (charBefore (.lit "*/"))) (.lit "*/")) ⟨n + 2, cs⟩ :=
    Answers.seq h.many (Lacks.word hclose)
  have hopen : Passes look (.lit "/*") ⟨n, '/' :: '*' :: cs⟩ ⟨n + 2, cs⟩ := Passes.word rfl
  have hblock : Lacks look (.call blockComment) ⟨n, '/' :: '*' :: cs⟩ :=
    Lacks.call (Answers.seq hopen hrest)
  exact .noSeq (Lacks.call (.right (Lacks.call (.noSeq (Lacks.word rfl))) hblock))

theorem lacks_spacedComment (hline : cur.take? ['/', '/'] = none)
    (hblock : cur.take? ['/', '*'] = none) : Lacks look spacedComment cur :=
  .noSeq (Lacks.call (.right (Lacks.call (.noSeq (Lacks.word hline)))
    (Lacks.call (.noSeq (Lacks.word hblock)))))

/-! ### What a reader of blanks does -/

/-- White space and comments lead from one place to another. -/
def AllPass (look : Look) (cur stop : Cursor) : Prop :=
  ∃ mid, Passes look (.further (.call whiteSpace)) cur mid ∧
    Passes look (.further spacedComment) mid stop

theorem allPass_of_lacks (hspace : Lacks look (.call whiteSpace) cur)
    (hcomment : Lacks look spacedComment cur) : AllPass look cur cur :=
  ⟨cur, hspace.further, hcomment.further⟩

theorem AllPass.comment (hspace : Lacks look (.call whiteSpace) cur)
    (hcomment : Passes look (.call comment) cur mid) (h : AllPass look mid stop) :
    AllPass look cur stop := by
  obtain ⟨behind, hspaces, hmore⟩ := h
  exact ⟨cur, hspace.further, (hcomment.seq hspaces.many).more hmore⟩

end BlankRule

/-- What the rules find at the place of a reader of blanks, and where that leads: the rest of the
comment that the reader is in, and all blanks behind it. A comment that is not closed leads back to the
place where it opened. -/
def BlankState.Passes (look : Look) (stop : Cursor) : BlankState → Cursor → Prop
  | .between, cur => BlankRule.AllPass look cur stop
  | .line, cur => ∃ mid,
    BlankRule.Passes look (.further (BlankRule.charBefore BlankRule.lineEnd)) cur mid ∧
      BlankRule.AllPass look mid stop
  | .block opened, cur => ∃ mid,
    BlankRule.Passes look (.further (BlankRule.charBefore (.lit "*/"))) cur mid ∧
      ((∃ behind, mid.take? ['*', '/'] = some behind ∧ BlankRule.AllPass look behind stop) ∨
        mid.take? ['*', '/'] = none ∧ stop = opened)

open BlankRule

/-- **A reader of blanks goes where the rules lead.** Induction along the reader, with what it has found
so far in its state. -/
theorem passes_skipFrom (look : Look) (state : BlankState) (n : Nat) (cs : List Char) :
    state.Passes look (skipFrom state n cs) ⟨n, cs⟩ := by
  fun_induction skipFrom state n cs with
  | case1 n => exact allPass_of_lacks lacks_whiteSpace_nil (lacks_spacedComment rfl rfl)
  | case2 n =>
    exact ⟨⟨n, []⟩, (lacks_charBefore_nil lacks_lineEnd_nil).further,
      allPass_of_lacks lacks_whiteSpace_nil (lacks_spacedComment rfl rfl)⟩
  | case3 opened n =>
    exact ⟨⟨n, []⟩, (lacks_charBefore_nil lacks_word_nil).further, .inr ⟨rfl, rfl⟩⟩
  | case4 n c cs hc ih =>
    obtain ⟨mid, hspaces, hmore⟩ := ih
    exact ⟨mid, (passes_whiteSpace hc).more hspaces, hmore⟩
  | case5 n => exact allPass_of_lacks (lacks_whiteSpace rfl) (lacks_spacedComment rfl rfl)
  | case6 n cs _ ih =>
    obtain ⟨mid, hchars, hpass⟩ := ih
    exact hpass.comment (lacks_whiteSpace rfl) (passes_lineComment hchars)
  | case7 n cs _ _ ih =>
    obtain ⟨mid, hchars, ⟨behind, hclose, hpass⟩ | ⟨hclose, hstop⟩⟩ := ih
    · exact hpass.comment (lacks_whiteSpace rfl) (passes_blockComment hchars hclose)
    · rw [hstop]
      exact allPass_of_lacks (lacks_whiteSpace rfl) (lacks_unclosed hchars hclose)
  | case8 n d cs hline hblock _ =>
    exact allPass_of_lacks (lacks_whiteSpace rfl)
      (lacks_spacedComment (if_neg hline) (if_neg hblock))
  | case9 n c cs hspace hslash =>
    exact allPass_of_lacks (lacks_whiteSpace (Bool.eq_false_iff.mpr hspace))
      (lacks_spacedComment (if_neg hslash) (if_neg hslash))
  | case10 n c cs hc ih =>
    obtain ⟨stop, hend⟩ : ∃ stop, BlankRule.Passes look.inside lineEnd ⟨n, c :: cs⟩ stop :=
      passes_lineEnd hc
    obtain ⟨mid, hspaces, hmore⟩ := ih
    exact ⟨⟨n, c :: cs⟩, (lacks_charBefore hend).further, mid,
      (passes_whiteSpace (isSpace_of_isLineEnd hc)).more hspaces, hmore⟩
  | case11 n c cs hc ih =>
    obtain ⟨mid, hchars, hpass⟩ := ih
    exact ⟨mid, (passes_charBefore (lacks_lineEnd (Bool.eq_false_iff.mpr hc))).more hchars, hpass⟩
  | case12 opened n =>
    exact ⟨⟨n + 1, []⟩, (passes_charBefore (Lacks.word rfl)).more
      (lacks_charBefore_nil lacks_word_nil).further, .inr ⟨rfl, rfl⟩⟩
  | case13 opened n cs ih =>
    exact ⟨⟨n, '*' :: '/' :: cs⟩, (lacks_charBefore (Passes.word rfl)).further,
      .inl ⟨⟨n + 2, cs⟩, rfl, ih⟩⟩
  | case14 opened n d cs hd ih =>
    obtain ⟨mid, hchars, hclose⟩ := ih
    have hopen : Cursor.take? ⟨n, '*' :: d :: cs⟩ ['*', '/'] = none := if_neg hd
    exact ⟨mid, (passes_charBefore (Lacks.word hopen)).more hchars, hclose⟩
  | case15 opened n c cs hc ih =>
    obtain ⟨mid, hchars, hclose⟩ := ih
    exact ⟨mid, (passes_charBefore (lacks_word_cons hc)).more hchars, hclose⟩

/-- **Passing over blanks is what the rules about them do.** -/
theorem answers_blanks (look : Look) (cur : Cursor) :
    Answers blankGrammar ⟨.atomic, look⟩ (.call .blanks) cur (some ([], grammar.skip cur)) := by
  obtain ⟨mid, hspaces, hcomments⟩ := passes_skipFrom look .between cur.offset cur.rest
  exact Passes.call (hspaces.many.seq hcomments.many)

end LuaSnippet.Script
