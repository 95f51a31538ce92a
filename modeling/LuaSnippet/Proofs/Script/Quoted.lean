import LuaSnippet.Proofs.Lua.Literal
import LuaSnippet.Proofs.Script.Abreast
import LuaSnippet.Proofs.Script.Else

/-!
# Strings that are written and read back

A text that is no more than a string literal is a script of one statement: the rules that are tried
before the one of string literals refuse a quote, and behind the closing quote nothing is left to read
(`read_quoted`). The characters that a string is written with in Lua are such a literal, and their
escapes mean the same in a script (`unescape_quoteChars`), so a string that is written is read back.
-/

namespace LuaSnippet.Script

open Lua.Progress (escapedChars quoteChar_of_notMem)
open Peg (Answers Context Cursor Pattern)

/-! ### Rules that refuse a place -/

/-- The circumstances in which a script is read. -/
def openly : Context := ⟨.spaced, .none⟩

/-- Whether a pattern is seen to fail at a place within a few calls, which can be computed even where the
text goes on in an unknown way. -/
def isRefused (cur : Cursor) (p : Pattern Rule) : Bool :=
  match grammar.run 60 openly p cur .empty with
  | .failed _ => true
  | .matched .. | .unfinished => false

theorem answers_of_isRefused {cur : Cursor} {p : Pattern Rule} (h : isRefused cur p = true) :
    Answers grammar openly p cur none := by
  unfold isRefused at h
  split at h
  · rename_i hrun
    exact Peg.Grammar.answers_of_run hrun trivial
  · cases h
  · cases h

theorem answers_firstOf {cur : Cursor} {found : List (Peg.Node Rule) × Cursor}
    {refused : List (Pattern Rule)} (hrefused : refused.all (isRefused cur) = true)
    {a b : Pattern Rule} {bs left : List (Pattern Rule)} (hsplit : a :: bs = refused ++ b :: left)
    (hb : Answers grammar openly b cur (some found)) :
    Answers grammar openly (.firstOf a bs) cur (some found) := by
  induction refused generalizing a bs with
  | nil =>
    obtain ⟨rfl, rfl⟩ := List.cons.inj hsplit
    cases bs with
    | nil => exact hb
    | cons => exact .left hb
  | cons x refused ih =>
    obtain ⟨rfl, rfl⟩ := List.cons.inj hsplit
    obtain ⟨hx, hrefused⟩ := Bool.and_eq_true_iff.mp hrefused
    cases refused with
    | nil => exact .right (answers_of_isRefused hx) (ih hrefused rfl)
    | cons => exact .right (answers_of_isRefused hx) (ih hrefused rfl)

/-! ### A string literal by itself -/

theorem answers_seq_end {a b : Pattern Rule} {cur : Cursor} {xs : List (Peg.Node Rule)} {o : Nat}
    (ha : Answers grammar openly a cur (some (xs, ⟨o, []⟩)))
    (hb : Answers grammar openly b ⟨o, []⟩ (some ([], ⟨o, []⟩))) :
    Answers grammar openly (.seq a b) cur (some (xs, ⟨o, []⟩)) := by
  have hpass : grammar.pass openly ⟨o, []⟩ = ⟨o, []⟩ := rfl
  have hseq := Answers.seq ha (hpass ▸ hb)
  rwa [Peg.Answer.behind, Option.map_some, List.append_nil] at hseq

theorem answers_seq_quote {a b : Pattern Rule} {quote : Char} (hquote : quote = '"' ∨ quote = '\'')
    {cs : List Char} {r : Peg.Answer Rule}
    (ha : Answers grammar openly a ⟨0, quote :: cs⟩ (some ([], ⟨0, quote :: cs⟩)))
    (hb : Answers grammar openly b ⟨0, quote :: cs⟩ r) :
    Answers grammar openly (.seq a b) ⟨0, quote :: cs⟩ r := by
  have hpass : grammar.pass openly ⟨0, quote :: cs⟩ = ⟨0, quote :: cs⟩ := by
    rcases hquote with rfl | rfl <;> cases cs <;> rfl
  have hseq := Answers.seq ha (hpass.symm ▸ hb)
  have hbehind : r.behind [] = r := by cases r <;> rfl
  rwa [hbehind] at hseq

section

variable {quote : Char} {cs : List Char} {xs : List (Peg.Node Rule)} {o : Nat}

theorem answers_expr_of_stringLit (hquote : quote = '"' ∨ quote = '\'')
    (h : Answers grammar openly (.call .stringLit) ⟨0, quote :: cs⟩ (some (xs, ⟨o, []⟩))) :
    Answers grammar openly (.call .expr) ⟨0, quote :: cs⟩
      (some ([.mk .expr ⟨0, quote :: cs⟩ ⟨o, []⟩ xs], ⟨o, []⟩)) := by
  have hsigns : isRefused ⟨0, quote :: cs⟩ (.firstOf (.call (.unaryOp .not))
      [.call (.unaryOp .neg), .call (.unaryOp .bitNot)]) = true := by
    rcases hquote with rfl | rfl <;> rfl
  have hothers : ([Rule.arrowFn, .parenExpr, .arrayLit, .objectLit, .numberLit].map .call).all
      (isRefused ⟨0, quote :: cs⟩) = true := by
    rcases hquote with rfl | rfl <;> rfl
  have hprimary : Answers grammar openly (.call .primary) ⟨0, quote :: cs⟩ (some (xs, ⟨o, []⟩)) :=
    .silent rfl (answers_firstOf hothers rfl h)
  have hsuffixed := answers_seq_end hprimary (.noRound (a := .firstOf (.call .callArgs)
    [.call .member, .call .nonNull]) (answers_of_isRefused rfl))
  have hoperand : Answers grammar openly Rule.operand ⟨0, quote :: cs⟩ (some (xs, ⟨o, []⟩)) :=
    answers_seq_quote hquote (.noRound (answers_of_isRefused hsigns)) hsuffixed
  have hbody : Answers grammar openly (grammar.body .expr) ⟨0, quote :: cs⟩ (some (xs, ⟨o, []⟩)) :=
    answers_seq_end hoperand (.noRound (answers_of_isRefused rfl))
  exact .call (r := Rule.expr) (by decide) hbody

theorem answers_program_of_expr (hquote : quote = '"' ∨ quote = '\'')
    (h : Answers grammar openly (.call .expr) ⟨0, quote :: cs⟩ (some (xs, ⟨o, []⟩))) :
    Answers grammar openly (.call .program) ⟨0, quote :: cs⟩
      (some ([.mk .program ⟨0, quote :: cs⟩ ⟨o, []⟩
        [.mk .exprStmt ⟨0, quote :: cs⟩ ⟨o, []⟩ xs, .mk .finish ⟨o, []⟩ ⟨o, []⟩ []]], ⟨o, []⟩)) := by
  have hexpr : Answers grammar openly (grammar.body .exprStmt) ⟨0, quote :: cs⟩
      (some (xs, ⟨o, []⟩)) :=
    answers_seq_end h (.absent (answers_of_isRefused rfl))
  have hothers : (Rule.statements.dropLast.map Pattern.call).all
      (isRefused ⟨0, quote :: cs⟩) = true := by
    -- some of the rules pass over blanks first, which asks for the character behind the quote
    rcases hquote with rfl | rfl <;> cases cs <;> rfl
  have hstatement : Answers grammar openly (.call .statement) ⟨0, quote :: cs⟩
      (some ([.mk .exprStmt ⟨0, quote :: cs⟩ ⟨o, []⟩ xs], ⟨o, []⟩)) :=
    .silent rfl (answers_firstOf hothers rfl (.call (r := Rule.exprStmt) (by decide) hexpr))
  have hmore : Answers grammar openly (.further (.call .statement)) ⟨o, []⟩ (some ([], ⟨o, []⟩)) :=
    .noMore (answers_of_isRefused rfl)
  have hend : Answers grammar openly .finish ⟨o, []⟩ (some ([], ⟨o, []⟩)) := .finish
  have hfinish : Answers grammar openly (.call .finish) ⟨o, []⟩
      (some ([.mk .finish ⟨o, []⟩ ⟨o, []⟩ []], ⟨o, []⟩)) :=
    .call (r := Rule.finish) (by decide) hend
  have hstatements : Answers grammar openly (.seq (.many (.call .statement)) (.call .finish))
      ⟨0, quote :: cs⟩ (some ([.mk .exprStmt ⟨0, quote :: cs⟩ ⟨o, []⟩ xs,
        .mk .finish ⟨o, []⟩ ⟨o, []⟩ []], ⟨o, []⟩)) :=
    .seq (.round hstatement hmore) hfinish
  have hbody : Answers grammar openly (grammar.body .program) ⟨0, quote :: cs⟩
      (some ([.mk .exprStmt ⟨0, quote :: cs⟩ ⟨o, []⟩ xs,
        .mk .finish ⟨o, []⟩ ⟨o, []⟩ []], ⟨o, []⟩)) :=
    answers_seq_quote hquote (.word (w := [])) hstatements
  exact .call (r := Rule.program) (by decide) hbody

theorem ofNodes_quoted {rule : Rule} (hrule : rule = .doubleQuoted ∨ rule = .singleQuoted)
    {cur start stop past : Cursor} :
    Piece.ofNodes [.mk .program cur past [.mk .exprStmt cur past [.mk .expr cur past
        [.mk .stringLit cur past [.mk rule start stop []]]], .mk .finish past past []]] =
      some [.block [.expr (.string (String.ofList (unescape (start.textTo stop)))
        ⟨cur.offset, past.offset⟩)] ⟨cur.offset, past.offset⟩] := by
  rcases hrule with rfl | rfl <;> rfl

/-- **A text that is no more than a string literal is read as one.** -/
theorem read_quoted {text : String} {body : List Char} (hquote : quote = '"' ∨ quote = '\'')
    (hbody : AreQuotable quote body) (htext : text.toList = quote :: (body ++ [quote])) :
    read text =
      .ok [.expr (.string (String.ofList (unescape body)) ⟨0, text.utf8ByteSize⟩)] := by
  have hstart : Cursor.start text.toList = ⟨0, quote :: (body ++ [quote])⟩ := by
    rw [htext]
    rfl
  obtain ⟨start, stop, past, hstring, hraw, hpast⟩ :
      ∃ start stop past, Answers grammar openly (.call .stringLit) ⟨0, quote :: (body ++ [quote])⟩
          (some ([.mk .stringLit ⟨0, quote :: (body ++ [quote])⟩ past
            [.mk (.quotedBy quote) start stop []]], past)) ∧
        start.textTo stop = body ∧ past.rest = [] :=
    answers_stringLit hquote hbody rfl
  obtain ⟨o, rest⟩ := past
  obtain rfl : rest = [] := hpast
  have hprogram := answers_program_of_expr hquote (answers_expr_of_stringLit hquote hstring)
  rw [← hstart] at hprogram
  -- the literal ends where the text ends
  obtain ⟨cs, hcs, hoffset⟩ := (hprogram.derives _ rfl).leads skipsAhead_grammar
  have hlength : o = text.utf8ByteSize := by
    obtain rfl : text.toList = cs := hcs.trans (List.append_nil cs)
    rw [← Text.byteLength_toList]
    exact hoffset.trans (Nat.zero_add _)
  obtain ⟨log, hparse⟩ := parse_of_answers hprogram
  obtain ⟨stmts, span, hread, hpieces⟩ := read_of_parse hparse
  rw [ofNodes_quoted (Rule.quotedBy_eq quote), hraw, hlength] at hpieces
  obtain ⟨rfl, -⟩ := Piece.block.inj (List.cons.inj (Option.some.inj hpieces)).1
  exact hread

end

/-! ### What the strings of Lua mean in a script -/

theorem quoteChar_cases (c : Char) :
    (∃ d, Lua.quoteChar c = ['\\', d] ∧ escaped d = c) ∨
      Lua.quoteChar c = [c] ∧ c ≠ '"' ∧ c ≠ '\\' ∧ isLineEnd c = false := by
  by_cases hc : c ∈ escapedChars
  · have hcases : c = '"' ∨ c = '\\' ∨ c = '\n' ∨ c = '\r' ∨ c = '\t' ∨ c = '\x00' := by
      simpa [escapedChars] using hc
    rcases hcases with rfl | rfl | rfl | rfl | rfl | rfl <;> exact .inl ⟨_, rfl, rfl⟩
  · have hplain := quoteChar_of_notMem hc
    simp only [escapedChars, List.mem_cons, List.not_mem_nil, or_false, not_or] at hc
    obtain ⟨hquote, hescape, hline, hreturn, -⟩ := hc
    exact .inr ⟨hplain, hquote, hescape, by simp [isLineEnd, hline, hreturn]⟩

theorem unescape_quoteChars (cs : List Char) : unescape (cs.flatMap Lua.quoteChar) = cs := by
  induction cs with
  | nil => rfl
  | cons c cs ih =>
    rw [List.flatMap_cons]
    rcases quoteChar_cases c with ⟨d, hd, rfl⟩ | ⟨hplain, -, hescape, -⟩
    · rw [hd, List.cons_append, List.cons_append, List.nil_append, unescape, if_pos rfl, ih]
    · rw [hplain, List.singleton_append]
      cases hrest : cs.flatMap Lua.quoteChar with
      | nil =>
        rw [hrest] at ih
        rw [← ih]
        rfl
      | cons d ds => rw [unescape, if_neg hescape, ← hrest, ih]

theorem areQuotable_quoteChars (cs : List Char) : AreQuotable '"' (cs.flatMap Lua.quoteChar) := by
  induction cs with
  | nil => exact .nil
  | cons c cs ih =>
    rw [List.flatMap_cons]
    rcases quoteChar_cases c with ⟨d, hd, -⟩ | ⟨hplain, hquote, hescape, hend⟩
    · rw [hd]
      exact .escape ih
    · rw [hplain]
      exact .plain hquote hescape hend ih

/-- **Strings that are written are read back.** Whatever string is written as a literal of Lua, a
script reads the literal as one statement that is no more than this string, from the first byte to the
last one; what stands between the quotes means the string, and no other string is written alike. -/
theorem read_quote :
    (∀ s : String, read (Lua.quote s) = .ok [.expr (.string s ⟨0, (Lua.quote s).utf8ByteSize⟩)]) ∧
      (∀ s : String, ∃ raw, (Lua.quote s).toList = '"' :: (raw ++ ['"']) ∧
        unescape raw = s.toList) ∧
      Function.Injective Lua.quote := by
  have hmeans (s : String) : (Lua.quote s).toList =
      '"' :: (s.toList.flatMap Lua.quoteChar ++ ['"']) ∧
      unescape (s.toList.flatMap Lua.quoteChar) = s.toList :=
    ⟨String.toList_ofList, unescape_quoteChars s.toList⟩
  refine ⟨fun s => ?_, fun s => ⟨_, hmeans s⟩, fun s t hst => ?_⟩
  · obtain ⟨htext, hvalue⟩ := hmeans s
    have hread := read_quoted (.inl rfl) (areQuotable_quoteChars s.toList) htext
    rwa [hvalue, String.ofList_toList] at hread
  · obtain ⟨hs, hvalue⟩ := hmeans s
    obtain ⟨ht, hvalue'⟩ := hmeans t
    have hraw := List.append_cancel_right (List.cons.inj (hs.symm.trans (hst ▸ ht))).2
    rw [hraw] at hvalue
    exact String.toList_injective (hvalue.symm.trans hvalue')

end LuaSnippet.Script
