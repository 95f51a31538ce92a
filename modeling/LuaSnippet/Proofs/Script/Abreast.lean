import LuaSnippet.Proofs.Peg.Answer
import LuaSnippet.Proofs.Script.Alike
import LuaSnippet.Proofs.Script.Soundness

/-!
# Reading a script whose comments became spaces

Two readers go through a text side by side, one with all comments and one with spaces for some of them.
No token of the grammar but the sign of a division has a slash, a quote or a space in it, and a division
is looked for only behind blanks, where no comment stands. So whatever a pattern answers the one reader,
it answers the other one alike (`answers_abreast`), and a text is read alike with and without its
comments (`read_spaced`).
-/

namespace LuaSnippet.Script

open Peg (Answer Answers Cursor Context Pattern)

/-! ### Two readers -/

/-- Whether two readers stand before the same parts, the second one with spaces for comments. -/
structure Abreast (segs : List Segment) (cur cur' : Cursor) : Prop where
  cut : AreCut segs
  rest : cur.rest = written segs
  rest' : cur'.rest = written (segs.map Segment.spaced)

/-- Whether no blank part comes first. -/
def IsSettled (segs : List Segment) : Prop :=
  ∀ s ∈ segs.head?, s.isBlank = false

/-- Whether a character can be in a token other than a string: comments and strings start with others,
and a comment that becomes a space starts with one of the others too. -/
def isPlain (c : Char) : Bool :=
  c ≠ '"' && c ≠ '\'' && c ≠ '/' && c ≠ ' '

/-- What the next part is for two readers: nothing, one and the same character, or a string or comment,
which starts with a character that is in no token. -/
inductive Next (segs : List Segment) (cur cur' : Cursor) : Prop where
  | nothing (hsegs : segs = []) (hrest : cur.rest = []) (hrest' : cur'.rest = [])
  | char {c cs cs' left} (hsegs : segs = .char c :: left) (hrest : cur.rest = c :: cs)
    (hrest' : cur'.rest = c :: cs') (h : Abreast left (cur.past c cs) (cur'.past c cs'))
  | other {s left c cs c' cs'} (hsegs : segs = s :: left) (hrest : cur.rest = c :: cs)
    (hrest' : cur'.rest = c' :: cs') (hc : isPlain c = false) (hc' : isPlain c' = false)
    (hslash : s.isBlank = false → c ≠ '/' ∧ c' ≠ '/')

namespace Abreast

variable {segs used left : List Segment} {cur cur' stop stop' : Cursor}

theorem next (h : Abreast segs cur cur') : Next segs cur cur' := by
  obtain ⟨hcut, hrest, hrest'⟩ := h
  cases hcut with
  | nil => exact .nothing rfl hrest hrest'
  | @cons s left hs hleft =>
    cases s with
    | char c => exact .char rfl hrest hrest' ⟨hleft, rfl, rfl⟩
    | quoted quote body =>
      obtain ⟨hquote, -⟩ := hs
      refine .other rfl hrest hrest' ?_ ?_ fun _ => ?_
      all_goals rcases hquote with rfl | rfl <;> decide
    | line body isKept | block body isKept =>
      cases isKept with
      | true => exact .other rfl hrest hrest' rfl rfl nofun
      | false => exact .other rfl hrest hrest' rfl rfl nofun

theorem textTo (h : Abreast segs cur cur') (hsegs : segs = used ++ left)
    (hleft : Abreast left stop stop') : AreCut used ∧ cur.textTo stop = written used ∧
      cur'.textTo stop' = written (used.map Segment.spaced) := by
  obtain ⟨hcut, hrest, hrest'⟩ := h
  subst hsegs
  refine ⟨hcut.of_append.1, Cursor.textTo_eq ?_, Cursor.textTo_eq ?_⟩
  · rw [hrest, hleft.rest, written_append]
  · rw [hrest', hleft.rest', List.map_append, written_append]

theorem pass (h : Abreast segs cur cur') (ctx : Context) :
    ∃ blanks left, segs = blanks ++ left ∧ Abreast left (grammar.pass ctx cur) (grammar.pass ctx cur') ∧
      (ctx.atomicity = .spaced → IsSettled left) ∧ (ctx.atomicity ≠ .spaced → blanks = []) := by
  by_cases hctx : ctx.atomicity = .spaced
  · have hskip {xs : List Segment} {c : Cursor} (hxs : AreCut xs) (hrest : c.rest = written xs) :
        (grammar.pass ctx c).rest = written (xs.dropWhile Segment.isBlank) := by
      rw [Peg.Grammar.pass, if_pos hctx, ← rest_skipFrom_written hxs c.offset, ← hrest]
      rfl
    have hsplit := List.takeWhile_append_dropWhile (p := Segment.isBlank) (l := segs)
    refine ⟨segs.takeWhile Segment.isBlank, segs.dropWhile Segment.isBlank, hsplit.symm, ⟨?_, ?_, ?_⟩,
      fun _ s hs => ?_, absurd hctx⟩
    · exact (hsplit.symm ▸ h.cut).of_append.2
    · exact hskip h.cut h.rest
    · rw [hskip h.cut.spaced h.rest', dropWhile_isBlank_spaced]
    · have hnot := List.head?_dropWhile_not Segment.isBlank segs
      rw [Option.mem_def.mp hs] at hnot
      simpa using hnot
  · rw [Peg.pass_of_ne_spaced hctx, Peg.pass_of_ne_spaced hctx]
    exact ⟨[], segs, rfl, h, fun h => absurd h hctx, fun _ => rfl⟩

end Abreast

/-! ### Answers -/

/-- Whether two answers lead over the same parts, of which none is a comment where no blanks are passed
over, and leave alike nodes. -/
inductive AnswersAlike (ctx : Context) (segs : List Segment) : Answer Rule → Answer Rule → Prop where
  | refused : AnswersAlike ctx segs none none
  | led {xs xs' stop stop' used left} (hsegs : segs = used ++ left) (hleft : Abreast left stop stop')
    (hplain : ctx.atomicity ≠ .spaced → used.map Segment.spaced = used) (hnodes : NodesAlike xs xs') :
    AnswersAlike ctx segs (some (xs, stop)) (some (xs', stop'))

namespace AnswersAlike

variable {ctx : Context} {segs used left : List Segment} {r r' : Answer Rule}
  {xs xs' : List (Peg.Node Rule)} {cur cur' : Cursor}

theorem here (h : Abreast segs cur cur') :
    AnswersAlike ctx segs (some ([], cur)) (some ([], cur')) :=
  .led (List.nil_append segs).symm h (fun _ => rfl) .nil

theorem behind (hsegs : segs = used ++ left)
    (hplain : ctx.atomicity ≠ .spaced → used.map Segment.spaced = used) (hxs : NodesAlike xs xs')
    (h : AnswersAlike ctx left r r') :
    AnswersAlike ctx segs (r.behind xs) (r'.behind xs') := by
  cases h with
  | refused => exact .refused
  | @led ys ys' stop stop' used' left' hleft hstop hplain' hys =>
    have hsplit : segs = (used ++ used') ++ left' := by rw [hsegs, hleft, List.append_assoc]
    refine .led hsplit hstop (fun hctx => ?_) (hxs.append hys)
    rw [List.map_append, hplain hctx, hplain' hctx]

end AnswersAlike

/-! ### Words -/

theorem alike_take? {segs : List Segment} {cur cur' : Cursor} (ctx : Context)
    (h : Abreast segs cur cur') {w : List Char} (hw : w.all isPlain = true) :
    AnswersAlike ctx segs ((cur.take? w).map ([], ·)) ((cur'.take? w).map ([], ·)) := by
  induction w generalizing segs cur cur' with
  | nil => exact .here h
  | cons d w ih =>
    rw [List.all_cons, Bool.and_eq_true] at hw
    obtain ⟨hd, hw⟩ := hw
    cases h.next with
    | nothing hsegs hrest hrest' =>
      simp only [Cursor.take?, hrest, hrest']
      exact .refused
    | @char c cs cs' left hsegs hrest hrest' hleft =>
      simp only [Cursor.take?, hrest, hrest']
      split
      · have hsegs : segs = [.char c] ++ left := hsegs
        have hbehind := (ih hleft hw).behind hsegs (fun _ => rfl) NodesAlike.nil
        simpa [Answer.behind, Function.comp_def] using hbehind
      · exact .refused
    | other hsegs hrest hrest' hc hc' =>
      simp only [Cursor.take?, hrest, hrest']
      rw [if_neg, if_neg]
      · exact .refused
      · rintro rfl
        rw [hc'] at hd
        cases hd
      · rintro rfl
        rw [hc] at hd
        cases hd

theorem alike_slash {segs : List Segment} {cur cur' : Cursor} (ctx : Context)
    (h : Abreast segs cur cur') (hsettled : IsSettled segs) :
    AnswersAlike ctx segs ((cur.take? ['/']).map ([], ·)) ((cur'.take? ['/']).map ([], ·)) := by
  cases h.next with
  | nothing hsegs hrest hrest' =>
    simp only [Cursor.take?, hrest, hrest']
    exact .refused
  | @char c cs cs' left hsegs hrest hrest' hleft =>
    simp only [Cursor.take?, hrest, hrest']
    split
    · have hsplit : segs = [.char c] ++ left := hsegs
      exact .led hsplit hleft (fun _ => rfl) .nil
    · exact .refused
  | @other s left c cs c' cs' hsegs hrest hrest' hc hc' hslash =>
    obtain ⟨hne, hne'⟩ := hslash (hsettled s (by rw [hsegs]; rfl))
    simp only [Cursor.take?, hrest, hrest']
    rw [if_neg hne, if_neg hne']
    exact .refused

theorem eq_false_of_isPlain {p : Char → Bool} {c : Char}
    (hp : (!p '"' && !p '\'' && !p '/' && !p ' ') = true) (hc : isPlain c = false) :
    p c = false := by
  simp only [Bool.and_eq_true, Bool.not_eq_true'] at hp
  obtain ⟨⟨⟨hdouble, hsingle⟩, hslash⟩, hspace⟩ := hp
  simp only [isPlain, ne_eq, Bool.and_eq_false_iff, decide_eq_false_iff_not, not_not] at hc
  rcases hc with ((rfl | rfl) | rfl) | rfl <;> assumption

/-! ### Strings -/

section

variable {ctx : Context} {quote : Char} {body rest rest' : List Char} {cur cur' : Cursor}

theorem answers_word_none {c d : Char} {cs : List Char} (hrest : cur.rest = c :: cs) (hne : c ≠ d) :
    Answers grammar ctx (.word [d]) cur none := by
  have htake : cur.take? [d] = none := by simp [Cursor.take?, hrest, hne]
  have hword : Answers grammar ctx (.word [d]) cur ((cur.take? [d]).map ([], ·)) := .word
  rwa [htake] at hword

theorem answers_word_some {c : Char} {cs : List Char} (hrest : cur.rest = c :: cs) :
    Answers grammar ctx (.word [c]) cur (some ([], cur.past c cs)) := by
  have htake : cur.take? [c] = some (cur.past c cs) := by simp [Cursor.take?, hrest]
  have hword : Answers grammar ctx (.word [c]) cur ((cur.take? [c]).map ([], ·)) := .word
  rwa [htake] at hword

theorem answers_char_some {p : Char → Bool} {c : Char} {cs : List Char} (hrest : cur.rest = c :: cs)
    (hp : p c = true) : Answers grammar ctx (.char p) cur (some ([], cur.past c cs)) := by
  have hchar : Answers grammar ctx (.char p) cur (if p c then some ([], cur.past c cs) else none) :=
    .char hrest
  rwa [if_pos hp] at hchar

theorem answers_char_none {p : Char → Bool} {c : Char} {cs : List Char} (hrest : cur.rest = c :: cs)
    (hp : p c = false) : Answers grammar ctx (.char p) cur none := by
  have hchar : Answers grammar ctx (.char p) cur (if p c then some ([], cur.past c cs) else none) :=
    .char hrest
  rwa [if_neg (by simp [hp])] at hchar

theorem answers_many_of_further {a : Pattern Rule} {r : Answer Rule} (hctx : ctx.atomicity ≠ .spaced)
    (h : Answers grammar ctx (.further a) cur r) : Answers grammar ctx (.many a) cur r := by
  cases h with
  | more ha hrest =>
    rw [Peg.pass_of_ne_spaced hctx] at ha
    exact .round ha hrest
  | noMore ha =>
    rw [Peg.pass_of_ne_spaced hctx] at ha
    exact .noRound ha

theorem answers_quotedChars (hctx : ctx.atomicity ≠ .spaced) (hquote : quote = '"' ∨ quote = '\'')
    (hbody : AreQuotable quote body) (hcur : cur.rest = body ++ quote :: rest) :
    ∃ stop, Answers grammar ctx (Rule.quotedChars quote) cur (some ([], stop)) ∧
      stop.rest = quote :: rest := by
  let part : Pattern Rule := .alt (.seq (.lit "\\") (.char fun _ => true))
    (.char fun c => c ≠ quote && c ≠ '\\' && !isLineEnd c)
  suffices h : ∃ stop, Answers grammar ctx (.further part) cur (some ([], stop)) ∧
      stop.rest = quote :: rest by
    obtain ⟨stop, hfurther, hstop⟩ := h
    exact ⟨stop, answers_many_of_further hctx hfurther, hstop⟩
  have hpass : ∀ c, grammar.pass ctx c = c := Peg.pass_of_ne_spaced hctx
  have hquoted : quote ≠ '\\' ∧ isLineEnd quote = false := by
    rcases hquote with rfl | rfl <;> exact ⟨by decide, rfl⟩
  induction hbody generalizing cur with
  | nil =>
    refine ⟨cur, .noMore ?_, hcur⟩
    rw [hpass]
    exact .right (.noSeq (answers_word_none hcur hquoted.1)) (answers_char_none hcur (by simp))
  | @escape c cs _ ih =>
    let mid := cur.past '\\' (c :: (cs ++ quote :: rest))
    have hchar : Answers grammar ctx (.char fun _ => true) (grammar.pass ctx mid)
        (some ([], mid.past c (cs ++ quote :: rest))) := by
      rw [hpass]
      exact answers_char_some rfl rfl
    have hescape : Answers grammar ctx part (grammar.pass ctx cur)
        (some ([], mid.past c (cs ++ quote :: rest))) := by
      rw [hpass]
      exact .left (.seq (answers_word_some hcur) hchar)
    have hnext : (mid.past c (cs ++ quote :: rest)).rest = cs ++ quote :: rest := rfl
    obtain ⟨stop, hfurther, hstop⟩ := ih hnext
    exact ⟨stop, hescape.more hfurther, hstop⟩
  | @plain c cs hne hescape hend _ ih =>
    have hplain : Answers grammar ctx part (grammar.pass ctx cur)
        (some ([], cur.past c (cs ++ quote :: rest))) := by
      rw [hpass]
      exact .right (.noSeq (answers_word_none hcur hescape))
        (answers_char_some hcur (by simp [hne, hescape, hend]))
    have hnext : (cur.past c (cs ++ quote :: rest)).rest = cs ++ quote :: rest := rfl
    obtain ⟨stop, hfurther, hstop⟩ := ih hnext
    exact ⟨stop, hplain.more hfurther, hstop⟩

theorem answers_quoted {r : Rule} (hctx : ctx.atomicity ≠ .spaced) (hmanner : grammar.manner r = .atomic)
    (hr : grammar.body r = Rule.quotedChars quote) (hquote : quote = '"' ∨ quote = '\'')
    (hbody : AreQuotable quote body) (hcur : cur.rest = quote :: (body ++ quote :: rest)) :
    ∃ start stop past, Answers grammar ctx (.inOrder (.word [quote]) [.call r, .word [quote]]) cur
      (some (Peg.leave ctx r start stop [] ++ [], past)) ∧ start.textTo stop = body ∧
      past.rest = rest := by
  have hpass : ∀ c, grammar.pass ctx c = c := Peg.pass_of_ne_spaced hctx
  let start := cur.past quote (body ++ quote :: rest)
  have hinner : (ctx.inner (grammar.manner r)).atomicity ≠ .spaced := by
    rw [hmanner]
    exact Peg.Atomicity.noConfusion
  have hstart : start.rest = body ++ quote :: rest := rfl
  obtain ⟨stop, hchars, hstop⟩ := answers_quotedChars hinner hquote hbody hstart
  rw [← hr] at hchars
  have hcall : Answers grammar ctx (.call r) (grammar.pass ctx start)
      (some (Peg.leave ctx r start stop [], stop)) := by
    rw [hpass]
    have hcall := Answers.call (by rw [hmanner]; nofun) hchars
    rw [hmanner] at hcall
    exact hcall
  have hclose : Answers grammar ctx (.word [quote]) (grammar.pass ctx stop)
      (some ([], stop.past quote rest)) := by
    rw [hpass]
    exact answers_word_some hstop
  have htext : start.textTo stop = body := by
    refine Cursor.textTo_eq ?_
    rw [hstart, hstop]
  exact ⟨start, stop, stop.past quote rest, .seq (answers_word_some hcur) (.seq hcall hclose), htext,
    rfl⟩

theorem answers_stringLit_of_body {a : Answer Rule}
    (h : Answers grammar (ctx.inner .compound) (grammar.body .stringLit) cur a) :
    Answers grammar ctx (.call .stringLit) cur (a.map fun found =>
      (Peg.leave (ctx.outer .compound) .stringLit cur found.2 found.1, found.2)) := by
  have hmanner : grammar.manner .stringLit ≠ .silent := by decide
  exact .call hmanner h

theorem answers_stringLit_none (hcur : ∀ c ∈ cur.rest.head?, c ≠ '"' ∧ c ≠ '\'') :
    Answers grammar ctx (.call .stringLit) cur none := by
  have hword (d : Char) (hd : ∀ c ∈ cur.rest.head?, c ≠ d) {ctx : Context} :
      Answers grammar ctx (.word [d]) cur none := by
    cases hrest : cur.rest with
    | nil =>
      have htake : cur.take? [d] = none := by simp [Cursor.take?, hrest]
      have hword : Answers grammar ctx (.word [d]) cur ((cur.take? [d]).map ([], ·)) := .word
      rwa [htake] at hword
    | cons c cs =>
      rw [hrest] at hd
      exact answers_word_none hrest (hd c rfl)
  have hbody : Answers grammar (ctx.inner .compound) (grammar.body .stringLit) cur none :=
    .right (.noSeq (hword '"' fun c hc => (hcur c hc).1))
      (.noSeq (hword '\'' fun c hc => (hcur c hc).2))
  exact answers_stringLit_of_body hbody

/-- The rule of what stands between two quotes. -/
def Rule.quotedBy (quote : Char) : Rule :=
  if quote = '"' then .doubleQuoted else .singleQuoted

theorem Rule.quotedBy_eq (quote : Char) :
    Rule.quotedBy quote = .doubleQuoted ∨ Rule.quotedBy quote = .singleQuoted := by
  unfold Rule.quotedBy
  split
  · exact .inl rfl
  · exact .inr rfl

theorem answers_stringLit (hquote : quote = '"' ∨ quote = '\'') (hbody : AreQuotable quote body)
    (hcur : cur.rest = quote :: (body ++ quote :: rest)) :
    ∃ start stop past, Answers grammar ctx (.call .stringLit) cur
        (some (Peg.leave (ctx.outer .compound) .stringLit cur past
          (Peg.leave (ctx.inner .compound) (.quotedBy quote) start stop [] ++ []), past)) ∧
      start.textTo stop = body ∧ past.rest = rest := by
  have hctx : (ctx.inner .compound).atomicity ≠ .spaced := Peg.Atomicity.noConfusion
  rcases hquote with rfl | rfl
  · obtain ⟨start, stop, past, hstring, htext, hpast⟩ :=
      answers_quoted (r := .doubleQuoted) hctx rfl rfl (.inl rfl) hbody hcur
    exact ⟨start, stop, past, answers_stringLit_of_body (.left hstring), htext, hpast⟩
  · obtain ⟨start, stop, past, hstring, htext, hpast⟩ :=
      answers_quoted (r := .singleQuoted) hctx rfl rfl (.inr rfl) hbody hcur
    have hnone : Answers grammar (ctx.inner .compound) (.word ['"']) cur none :=
      answers_word_none hcur (by decide)
    exact ⟨start, stop, past, answers_stringLit_of_body (.right (.noSeq hnone) hstring), htext,
      hpast⟩

end

theorem nodesAlike_string {ctx ctx' : Context} {quote : Char} {cur cur' start start' stop stop' past
    past' : Cursor} :
    NodesAlike (Peg.leave ctx .stringLit cur past
        (Peg.leave ctx' (.quotedBy quote) start stop [] ++ []))
      (Peg.leave ctx .stringLit cur' past'
        (Peg.leave ctx' (.quotedBy quote) start' stop' [] ++ [])) := by
  refine .leave (fun _ h h' => ?_) (.append (.leave (fun _ h h' => ?_) .nil) .nil)
  · obtain ⟨_, _, rfl⟩ := Piece.isOf_make h
    obtain ⟨_, _, rfl⟩ := Piece.isOf_make h'
    exact Piece.alike_of_isSilent rfl rfl
  · rcases Rule.quotedBy_eq quote with hrule | hrule
    all_goals
      rw [hrule] at h h'
      obtain ⟨_, rfl⟩ := Piece.isOf_make h
      obtain ⟨_, rfl⟩ := Piece.isOf_make h'
      exact Piece.alike_of_isSilent rfl rfl

theorem alike_stringLit {segs : List Segment} {cur cur' : Cursor} (ctx : Context)
    (h : Abreast segs cur cur') :
    ∃ r r', Answers grammar ctx (.call .stringLit) cur r ∧
      Answers grammar ctx (.call .stringLit) cur' r' ∧ AnswersAlike ctx segs r r' := by
  obtain ⟨hcut, hrest, hrest'⟩ := h
  -- where no string comes next, no quote does either
  have hrefused (hhead : ∀ c ∈ cur.rest.head?, c ≠ '"' ∧ c ≠ '\'')
      (hhead' : ∀ c ∈ cur'.rest.head?, c ≠ '"' ∧ c ≠ '\'') :
      ∃ r r', Answers grammar ctx (.call .stringLit) cur r ∧
        Answers grammar ctx (.call .stringLit) cur' r' ∧ AnswersAlike ctx segs r r' :=
    ⟨none, none, answers_stringLit_none hhead, answers_stringLit_none hhead', .refused⟩
  rw [hrest, hrest'] at hrefused
  cases hcut with
  | nil => exact hrefused nofun nofun
  | @cons s left hs hleft =>
    cases s with
    | char c =>
      have hc : ∀ d ∈ some c, d ≠ '"' ∧ d ≠ '\'' := by
        rintro _ ⟨⟩
        exact ⟨hs.1, hs.2.1⟩
      exact hrefused hc hc
    | line body isKept | block body isKept =>
      cases isKept <;> exact hrefused (by rintro _ ⟨⟩; decide) (by rintro _ ⟨⟩; decide)
    | quoted quote body =>
      obtain ⟨hquote, hbody⟩ := hs
      have hcur : cur.rest = quote :: (body ++ quote :: written left) := by
        rw [hrest]
        simp [Segment.text]
      have hcur' : cur'.rest = quote :: (body ++ quote :: written (left.map Segment.spaced)) := by
        rw [hrest']
        simp [Segment.text, Segment.spaced]
      obtain ⟨start, stop, past, hstring, -, hpast⟩ := answers_stringLit hquote hbody hcur
      obtain ⟨start', stop', past', hstring', -, hpast'⟩ := answers_stringLit hquote hbody hcur'
      refine ⟨_, _, hstring, hstring', ?_⟩
      have hsplit : .quoted quote body :: left = [.quoted quote body] ++ left := rfl
      exact .led hsplit ⟨hleft, hpast, hpast'⟩ (fun _ => rfl) nodesAlike_string

/-! ### Patterns -/

/-- Whether a pattern reads no slash, no quote and no space itself, the sign of a division aside, and
looks for that only where no blanks come first (`settled`) and blanks may stand (`spaced`). -/
def readsPlainly (spaced : Bool) : Bool → Pattern Rule → Bool
  | settled, .word w => w.all isPlain || settled && w = ['/']
  | _, .char p => !p '"' && !p '\'' && !p '/' && !p ' '
  | _, .finish => true
  | settled, .seq a b => readsPlainly spaced settled a && readsPlainly spaced spaced b
  | settled, .alt a b => readsPlainly spaced settled a && readsPlainly spaced settled b
  | settled, .opt a | settled, .forbid a => readsPlainly spaced settled a
  | settled, .many a => readsPlainly spaced settled a && readsPlainly spaced spaced a
  | _, .further a => readsPlainly spaced spaced a
  | settled, .call r =>
    r ≠ .doubleQuoted && r ≠ .singleQuoted && (settled || r ≠ .binaryOp .div) &&
      (spaced || grammar.manner r = .atomic)

/-- **The rules of the grammar but those of strings read plainly.** -/
theorem readsPlainly_body {r : Rule}
    (hr : r ≠ .stringLit ∧ r ≠ .doubleQuoted ∧ r ≠ .singleQuoted) :
    readsPlainly (grammar.manner r ≠ .atomic) (r = .binaryOp .div) (grammar.body r) = true := by
  obtain ⟨hstring, hdouble, hsingle⟩ := hr
  cases r with
  | keyword k => cases k <;> decide
  | unaryOp op => cases op <;> decide
  | binaryOp op => cases op <;> decide
  | stringLit => exact absurd rfl hstring
  | doubleQuoted => exact absurd rfl hdouble
  | singleQuoted => exact absurd rfl hsingle
  | _ => decide

theorem eq_stringLit_of_manner {r : Rule} (hr : grammar.manner r = .compound) : r = .stringLit := by
  cases r with
  | stringLit => rfl
  | _ => cases hr

theorem manner_of_readsPlainly {ctx : Context} {settled : Bool} {r : Rule}
    (h : readsPlainly (ctx.atomicity = .spaced) settled (.call r) = true) :
    ctx.atomicity = .spaced ∨ grammar.manner r = .atomic := by
  simp only [readsPlainly, Bool.and_eq_true, Bool.or_eq_true, decide_eq_true_eq] at h
  exact h.2

/-- **If a call of a rule reads plainly, then the rule does**, unless it is the one of strings. -/
theorem readsPlainly_inner {ctx : Context} {settled : Bool} {r : Rule}
    (h : readsPlainly (ctx.atomicity = .spaced) settled (.call r) = true) (hr : r ≠ .stringLit) :
    readsPlainly ((ctx.inner (grammar.manner r)).atomicity = .spaced) (r = .binaryOp .div)
        (grammar.body r) = true ∧
      (decide (r = .binaryOp .div) = true → settled = true) := by
  have hctx := manner_of_readsPlainly h
  simp only [readsPlainly, Bool.and_eq_true, Bool.or_eq_true, decide_eq_true_eq] at h
  obtain ⟨⟨hquoted, hdiv⟩, -⟩ := h
  have hsame : decide ((ctx.inner (grammar.manner r)).atomicity = .spaced) =
      decide (grammar.manner r ≠ .atomic) := by
    cases hm : grammar.manner r with
    | atomic => rfl
    | compound => exact absurd (eq_stringLit_of_manner hm) hr
    | normal | silent => simp [Context.inner, hctx.resolve_right (by simp [hm])]
  rw [hsame]
  exact ⟨readsPlainly_body ⟨hr, hquoted⟩,
    fun h => hdiv.resolve_right (not_not.mpr (of_decide_eq_true h))⟩

theorem isSettled_of_false {segs : List Segment} : false = true → IsSettled segs := Bool.noConfusion

theorem alike_leave {ctx : Context} {segs : List Segment} {r : Rule} {cur cur' : Cursor}
    {a a' : Answer Rule} (habreast : Abreast segs cur cur')
    (hctx : ctx.atomicity = .spaced ∨ grammar.manner r = .atomic)
    (h : AnswersAlike (ctx.inner (grammar.manner r)) segs a a') :
    AnswersAlike ctx segs
      (a.map fun found => (Peg.leave (ctx.outer (grammar.manner r)) r cur found.2 found.1, found.2))
      (a'.map fun found =>
        (Peg.leave (ctx.outer (grammar.manner r)) r cur' found.2 found.1, found.2)) := by
  cases h with
  | refused => exact .refused
  | led hsegs hleft hplain hnodes =>
    obtain ⟨hcut, htext, htext'⟩ := habreast.textTo hsegs hleft
    have hatomic (hr : grammar.manner r = .atomic) := hplain (by rw [hr]; exact Peg.Atomicity.noConfusion)
    refine .led hsegs hleft (fun hne => hatomic (hctx.resolve_left hne)) (.leave ?_ hnodes)
    exact fun hparts h h' => Piece.alike_make hcut htext htext' hatomic hparts h h'

/-- **Two readers get alike answers.** -/
theorem answers_abreast {ctx : Context} {p : Pattern Rule} {cur : Cursor} {r : Answer Rule}
    (h : Answers grammar ctx p cur r) {segs : List Segment} {settled : Bool} {cur' : Cursor}
    (habreast : Abreast segs cur cur') (hsettled : settled = true → IsSettled segs)
    (hp : readsPlainly (ctx.atomicity = .spaced) settled p = true) :
    ∃ r', Answers grammar ctx p cur' r' ∧ AnswersAlike ctx segs r r' := by
  induction h generalizing segs settled cur' with
  | @word ctx cur w =>
    refine ⟨_, .word, ?_⟩
    rw [readsPlainly, Bool.or_eq_true, Bool.and_eq_true, decide_eq_true_eq] at hp
    rcases hp with hw | ⟨hp, rfl⟩
    · exact alike_take? ctx habreast hw
    · exact alike_slash ctx habreast (hsettled hp)
  | @char ctx cur p c cs hrest =>
    cases habreast.next with
    | nothing _ hnil _ => cases hrest.symm.trans hnil
    | @char d ds ds' left hsegs hd hd' hleft =>
      obtain ⟨rfl, rfl⟩ := List.cons.inj (hrest.symm.trans hd)
      refine ⟨_, .char hd', ?_⟩
      split
      · have hsplit : segs = [.char c] ++ left := hsegs
        exact .led hsplit hleft (fun _ => rfl) .nil
      · exact .refused
    | other _ hd hd' hc hc' _ =>
      obtain ⟨rfl, rfl⟩ := List.cons.inj (hrest.symm.trans hd)
      refine ⟨none, answers_char_none hd' (eq_false_of_isPlain hp hc'), ?_⟩
      rw [eq_false_of_isPlain hp hc]
      exact .refused
  | @noChar ctx cur p hrest =>
    cases habreast.next with
    | nothing _ _ hrest' => exact ⟨none, .noChar hrest', .refused⟩
    | char _ hd | other _ hd => cases hrest.symm.trans hd
  | @finish ctx cur =>
    refine ⟨_, .finish, ?_⟩
    cases habreast.next with
    | nothing _ hrest hrest' =>
      rw [if_pos hrest, if_pos hrest']
      exact .here habreast
    | char _ hrest hrest' | other _ hrest hrest' =>
      rw [hrest, hrest']
      exact .refused
  | @seq ctx a b cur mid xs r _ _ iha ihb =>
    rw [readsPlainly, Bool.and_eq_true] at hp
    obtain ⟨ra, ha, halike⟩ := iha habreast hsettled hp.1
    cases halike with
    | @led _ xs' _ mid' used left hsegs hleft hplain hxs =>
      obtain ⟨blanks, others, hsplit, hothers, hpassed, hnone⟩ := hleft.pass ctx
      obtain ⟨rb, hb, hbehind⟩ := ihb hothers (fun h => hpassed (of_decide_eq_true h)) hp.2
      have hall : segs = (used ++ blanks) ++ others := by rw [hsegs, hsplit, List.append_assoc]
      refine ⟨_, .seq ha hb, hbehind.behind hall (fun hctx => ?_) hxs⟩
      rw [hnone hctx, List.append_nil, hplain hctx]
  | @noSeq ctx a b cur _ iha =>
    rw [readsPlainly, Bool.and_eq_true] at hp
    obtain ⟨ra, ha, halike⟩ := iha habreast hsettled hp.1
    cases halike with
    | refused => exact ⟨none, .noSeq ha, .refused⟩
  | @left ctx a b cur found _ iha =>
    rw [readsPlainly, Bool.and_eq_true] at hp
    obtain ⟨ra, ha, halike⟩ := iha habreast hsettled hp.1
    cases halike with
    | led hsegs hleft hplain hxs => exact ⟨_, .left ha, .led hsegs hleft hplain hxs⟩
  | @right ctx a b cur r _ _ iha ihb =>
    rw [readsPlainly, Bool.and_eq_true] at hp
    obtain ⟨ra, ha, halike⟩ := iha habreast hsettled hp.1
    obtain ⟨rb, hb, hother⟩ := ihb habreast hsettled hp.2
    cases halike with
    | refused => exact ⟨rb, .right ha hb, hother⟩
  | @present ctx a cur found _ iha =>
    obtain ⟨ra, ha, halike⟩ := iha habreast hsettled hp
    cases halike with
    | led hsegs hleft hplain hxs => exact ⟨_, .present ha, .led hsegs hleft hplain hxs⟩
  | @absent ctx a cur _ iha =>
    obtain ⟨ra, ha, halike⟩ := iha habreast hsettled hp
    cases halike with
    | refused => exact ⟨_, .absent ha, .here habreast⟩
  | @round ctx a cur mid xs r _ _ iha ihrest =>
    rw [readsPlainly, Bool.and_eq_true] at hp
    obtain ⟨ra, ha, halike⟩ := iha habreast hsettled hp.1
    cases halike with
    | led hsegs hleft hplain hxs =>
      obtain ⟨rb, hb, hbehind⟩ := ihrest hleft isSettled_of_false hp.2
      exact ⟨_, .round ha hb, hbehind.behind hsegs hplain hxs⟩
  | @noRound ctx a cur _ iha =>
    rw [readsPlainly, Bool.and_eq_true] at hp
    obtain ⟨ra, ha, halike⟩ := iha habreast hsettled hp.1
    cases halike with
    | refused => exact ⟨_, .noRound ha, .here habreast⟩
  | @more ctx a cur mid xs r _ _ iha ihrest =>
    obtain ⟨blanks, others, hsplit, hothers, hpassed, hnone⟩ := habreast.pass ctx
    obtain ⟨ra, ha, halike⟩ := iha hothers (fun h => hpassed (of_decide_eq_true h)) hp
    cases halike with
    | @led _ xs' _ mid' used left hsegs hleft hplain hxs =>
      obtain ⟨rb, hb, hbehind⟩ := ihrest hleft isSettled_of_false hp
      have hall : segs = (blanks ++ used) ++ left := by rw [hsplit, hsegs, List.append_assoc]
      refine ⟨_, .more ha hb, hbehind.behind hall (fun hctx => ?_) hxs⟩
      rw [hnone hctx, List.nil_append, hplain hctx]
  | @noMore ctx a cur _ iha =>
    obtain ⟨blanks, others, hsplit, hothers, hpassed, hnone⟩ := habreast.pass ctx
    obtain ⟨ra, ha, halike⟩ := iha hothers (fun h => hpassed (of_decide_eq_true h)) hp
    cases halike with
    | refused => exact ⟨_, .noMore ha, .here habreast⟩
  | @forbid ctx a cur r _ iha =>
    obtain ⟨ra, ha, halike⟩ := iha habreast hsettled hp
    refine ⟨_, .forbid ha, ?_⟩
    cases halike with
    | refused => exact .here habreast
    | led => exact .refused
  | @silent ctx r cur a hr _ ih =>
    have hstring : r ≠ .stringLit := by
      rintro rfl
      cases hr
    obtain ⟨hbody, hdiv⟩ := readsPlainly_inner hp hstring
    rw [hr] at hbody
    obtain ⟨ra, ha, halike⟩ := ih habreast (fun h => hsettled (hdiv h)) hbody
    exact ⟨ra, .silent hr ha, halike⟩
  | @call ctx r cur a hr hbody ih =>
    by_cases hstring : r = .stringLit
    · -- a string is read as a whole
      subst hstring
      obtain ⟨ra, ra', ha, ha', halike⟩ := alike_stringLit ctx habreast
      rw [(Answers.call hr hbody).unique ha]
      exact ⟨ra', ha', halike⟩
    · obtain ⟨hbody, hdiv⟩ := readsPlainly_inner hp hstring
      obtain ⟨ra, ha, halike⟩ := ih habreast (fun h => hsettled (hdiv h)) hbody
      exact ⟨_, .call hr ha, alike_leave habreast (manner_of_readsPlainly hp) halike⟩

/-! ### Reading -/

variable {text text' : String}

theorem read_of_parse {nodes : List (Peg.Node Rule)} {stop : Cursor} {log : Peg.Attempts Rule}
    (h : grammar.parse .program text.toList = .matched nodes stop log) :
    ∃ body span, read text = .ok body ∧ Piece.ofNodes nodes = some [.block body span] := by
  have hread : read? text = (statementsOf nodes).map .ok := by
    unfold read?
    rw [h]
  have hsome := isSome_read? text
  rw [hread, Option.isSome_map] at hsome
  obtain ⟨body, hbody⟩ := Option.isSome_iff_exists.mp hsome
  have hok : read text = .ok body := by
    rw [read, hread, hbody]
    rfl
  obtain ⟨nodes', stop', log', span, hmatched, hpieces⟩ := parse_of_read hok
  cases h.symm.trans hmatched
  exact ⟨body, span, hok, hpieces⟩

theorem parse_of_answers {text : List Char} {nodes : List (Peg.Node Rule)} {stop : Cursor}
    (h : Answers grammar ⟨.spaced, .none⟩ (.call .program) (Cursor.start text)
      (some (nodes, stop))) :
    ∃ log, grammar.parse .program text = .matched nodes stop log := by
  have hfinished := finished_parse text
  have hunique := (Peg.Grammar.answers_of_run rfl hfinished).unique h
  change (grammar.parse .program text).answer = _ at hunique
  cases hparse : grammar.parse .program text with
  | unfinished =>
    rw [hparse] at hfinished
    exact hfinished.elim
  | failed log =>
    rw [hparse] at hunique
    cases hunique
  | matched nodes' stop' log =>
    rw [hparse] at hunique
    cases hunique
    exact ⟨log, rfl⟩

/-- **A text is read alike if comments in it become spaces.** -/
theorem read_spaced (h : IsSpaced text text') {body : List Stmt} (hread : read text = .ok body) :
    ∃ body', read text' = .ok body' ∧ List.Forall₂ Stmt.Alike body body' := by
  obtain ⟨segs, hcut, htext, htext'⟩ := h
  obtain ⟨nodes, stop, log, span, hmatched, hpieces⟩ := parse_of_read hread
  have habreast : Abreast segs (Cursor.start text.toList) (Cursor.start text'.toList) :=
    ⟨hcut, htext, htext'⟩
  have hanswers : Answers grammar ⟨.spaced, .none⟩ (.call .program) (Cursor.start text.toList)
      (some (nodes, stop)) :=
    Peg.Grammar.answers_of_run hmatched trivial
  obtain ⟨r', hanswers', halike⟩ := answers_abreast hanswers habreast isSettled_of_false rfl
  cases halike with
  | @led _ nodes' _ stop' used left hsegs hleft hplain hnodes =>
    obtain ⟨log', hparse⟩ := parse_of_answers hanswers'
    obtain ⟨body', span', hread', hpieces'⟩ := read_of_parse hparse
    refine ⟨body', hread', ?_⟩
    obtain ⟨hblock, -⟩ := List.forall₂_cons.mp (hnodes _ _ hpieces hpieces')
    obtain ⟨hbody⟩ := hblock.block
    exact hbody

end LuaSnippet.Script
