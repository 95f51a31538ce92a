import LuaSnippet.Proofs.Script.Abreast
import LuaSnippet.Proofs.Script.Faithful

/-!
# Cutting a script

Every text that is read falls into string literals, comments and characters outside of both, in one
way (`existsUnique_cut_of_read`): what the reader passes over are white space and comments, and what it
reads are strings and characters that open no comment.
-/

namespace LuaSnippet.Script

open Peg (Context Cursor Derives Node Pattern)

/-- Whether a text falls into parts, with all comments to become spaces. -/
def IsCuttable (cs : List Char) : Prop :=
  ∃ segs, AreCut segs ∧ written segs = cs ∧ ∀ s ∈ segs, s.isKept = false

namespace IsCuttable

variable {rest : List Char}

theorem nil : IsCuttable [] := ⟨[], .nil, rfl, List.forall_mem_nil _⟩

theorem cons {s : Segment} (hs : s.Stands rest) (hkept : s.isKept = false) (h : IsCuttable rest) :
    IsCuttable (s.text ++ rest) := by
  obtain ⟨segs, hcut, rfl, hall⟩ := h
  exact ⟨s :: segs, .cons hs hcut, rfl, List.forall_mem_cons.mpr ⟨hkept, hall⟩⟩

theorem char {c : Char} (hc : isPlain c = true ∨ c = ' ') (h : IsCuttable rest) :
    IsCuttable (c :: rest) := by
  have hne : c ≠ '"' ∧ c ≠ '\'' ∧ c ≠ '/' := by
    rcases hc with hc | rfl
    · simp only [isPlain, ne_eq, Bool.and_eq_true, decide_eq_true_eq] at hc
      exact ⟨hc.1.1.1, hc.1.1.2, hc.1.2⟩
    · decide
  have hstands : (Segment.char c).Stands rest := ⟨hne.1, hne.2.1, fun h => absurd h hne.2.2⟩
  exact h.cons hstands rfl

theorem word {w : List Char} (hw : w.all isPlain = true) (h : IsCuttable rest) :
    IsCuttable (w ++ rest) := by
  induction w with
  | nil => exact h
  | cons c w ih =>
    rw [List.all_cons, Bool.and_eq_true] at hw
    exact (ih hw.2).char (.inl hw.1)

end IsCuttable

/-! ### Blanks -/

theorem not_infix_cons {c : Char} {body : List Char} (h : ¬ ['*', '/'] <:+: body)
    (hc : c = '*' → body.head? ≠ some '/') : ¬ ['*', '/'] <:+: c :: body := by
  intro hopens
  rcases List.infix_cons_iff.mp hopens with hprefix | hopens
  · obtain ⟨rfl, rest, hrest⟩ := List.cons_prefix_cons.mp hprefix
    exact hc rfl (by rw [← hrest]; rfl)
  · exact h hopens

/-- Whether a reader in some state stands before parts, if the text behind the blanks falls into
parts. -/
def BlankState.Cuts (stop : Cursor) : BlankState → List Char → Prop
  | .between, cs => IsCuttable cs
  | .line, cs => ∃ body rest, cs = body ++ rest ∧ (∀ c ∈ body, isLineEnd c = false) ∧
      (∀ c ∈ rest.head?, isLineEnd c = true) ∧ IsCuttable rest
  | .block opened, cs => stop = opened ∨
      ∃ body rest, cs = body ++ '*' :: '/' :: rest ∧ ¬ ['*', '/'] <:+: body ∧ IsCuttable rest

theorem isPlain_of_isSpace {c : Char} (hc : isSpace c = true) : isPlain c = true ∨ c = ' ' := by
  simp only [isSpace, Bool.or_eq_true, decide_eq_true_eq] at hc
  rcases hc with ((rfl | rfl) | rfl) | rfl
  · exact .inr rfl
  all_goals exact .inl rfl

/-- **What a reader passes over falls into parts.** -/
theorem cuts_skipFrom {state : BlankState} {n : Nat} {cs : List Char}
    (h : IsCuttable (skipFrom state n cs).rest) : state.Cuts (skipFrom state n cs) cs := by
  fun_induction skipFrom state n cs with
  | case1 => exact .nil
  | case2 => exact ⟨[], [], rfl, List.forall_mem_nil _, by simp, .nil⟩
  | case3 => exact .inl rfl
  | case4 n c cs hc ih => exact (ih h).char (isPlain_of_isSpace hc)
  | case5 => exact h
  | case6 n ds hspace ih =>
    obtain ⟨body, rest, rfl, hbody, hrest, hcut⟩ := ih h
    have hstands : (Segment.line body false).Stands rest := ⟨hbody, hrest⟩
    exact hcut.cons hstands rfl
  | case7 n ds hspace hd ih =>
    rcases ih h with hopened | ⟨body, rest, rfl, hbody, hcut⟩
    · rw [hopened] at h
      exact h
    · have hstands : (Segment.block body false).Stands rest := hbody
      show IsCuttable _
      simpa [Segment.text] using hcut.cons hstands rfl
  | case8 => exact h
  | case9 => exact h
  | case10 n c cs hc ih =>
    have hcut : IsCuttable (c :: cs) := (ih h).char (isPlain_of_isSpace (isSpace_of_isLineEnd hc))
    refine ⟨[], c :: cs, rfl, List.forall_mem_nil _, ?_, hcut⟩
    rintro _ ⟨⟩
    exact hc
  | case11 n c cs hc ih =>
    obtain ⟨body, rest, rfl, hbody, hrest, hcut⟩ := ih h
    exact ⟨c :: body, rest, rfl, List.forall_mem_cons.mpr ⟨by simpa using hc, hbody⟩, hrest, hcut⟩
  | case12 => exact .inl rfl
  | case13 opened n ds ih => exact .inr ⟨[], ds, rfl, by simp, ih h⟩
  | case14 opened n d ds hd ih =>
    rcases ih h with hopened | ⟨body, rest, hbody, hopens, hcut⟩
    · exact .inl hopened
    · refine .inr ⟨'*' :: body, rest, by rw [hbody]; rfl, not_infix_cons hopens fun _ hhead => ?_, hcut⟩
      cases body with
      | nil => cases hhead
      | cons c body =>
        obtain ⟨rfl, -⟩ := List.cons.inj hbody
        exact hd (Option.some.inj hhead)
  | case15 opened n c cs hc ih =>
    rcases ih h with hopened | ⟨body, rest, rfl, hopens, hcut⟩
    · exact .inl hopened
    · exact .inr ⟨c :: body, rest, rfl, not_infix_cons hopens fun h => absurd h hc, hcut⟩

theorem isCuttable_of_pass {ctx : Context} {cur : Cursor}
    (h : IsCuttable (grammar.pass ctx cur).rest) : IsCuttable cur.rest := by
  unfold Peg.Grammar.pass at h
  split at h
  · exact cuts_skipFrom h
  · exact h

/-! ### Divisions -/

theorem exists_close {cs : List Char} (h : ['*', '/'] <:+: cs) :
    ∃ body rest, cs = body ++ '*' :: '/' :: rest ∧ ¬ ['*', '/'] <:+: body := by
  induction cs with
  | nil => cases List.infix_nil.mp h
  | cons c cs ih =>
    by_cases hprefix : ['*', '/'] <+: c :: cs
    · obtain ⟨rest, hrest⟩ := hprefix
      exact ⟨[], rest, hrest.symm, by simp⟩
    · obtain ⟨body, rest, rfl, hbody⟩ := ih ((List.infix_cons_iff.mp h).resolve_left hprefix)
      refine ⟨c :: body, rest, rfl, not_infix_cons hbody ?_⟩
      rintro rfl hhead
      obtain ⟨body, rfl⟩ := List.head?_eq_some_iff.mp hhead
      exact hprefix ⟨body ++ '*' :: '/' :: rest, rfl⟩

theorem length_skipFrom_le (state : BlankState) (hstate : ∀ opened, state ≠ .block opened) (n : Nat)
    (cs : List Char) : (skipFrom state n cs).rest.length ≤ cs.length := by
  have hopened : state.OpenedBehind ⟨n, cs⟩ := by
    cases state with
    | between | line => trivial
    | block opened => exact absurd rfl (hstate opened)
  exact (leads_skipFrom hopened (.refl _)).length_le

theorem opensNone_of_skipFrom {n : Nat} {rest : List Char}
    (h : (skipFrom .between n ('/' :: rest)).rest = '/' :: rest) : Segment.OpensNone rest := by
  cases rest with
  | nil => simp [Segment.OpensNone]
  | cons d rest =>
    rw [skipFrom, if_neg (by decide), if_pos rfl] at h
    refine ⟨fun hd => ?_, fun hd hopens => ?_⟩
    · rw [if_pos (Option.some.inj hd)] at h
      have hle := length_skipFrom_le .line (fun _ => BlankState.noConfusion) (n + 2) rest
      rw [h, List.length_cons, List.length_cons] at hle
      omega
    · obtain rfl : d = '*' := Option.some.inj hd
      obtain ⟨body, behind, hrest, hbody⟩ := exists_close hopens
      obtain rfl : rest = body ++ '*' :: '/' :: behind := hrest
      rw [if_neg (by decide), if_pos rfl] at h
      obtain ⟨m, hm⟩ := skipFrom_block hbody ⟨n, '/' :: '*' :: (body ++ '*' :: '/' :: behind)⟩
        (n + 2) behind
      rw [hm] at h
      have hle := length_skipFrom_le .between (fun _ => BlankState.noConfusion) m behind
      rw [h] at hle
      simp at hle
      omega

/-! ### Derivations -/

/-- **What a pattern reads falls into parts**, if what follows it does. -/
theorem isCuttable_of_derives {ctx : Context} {p : Pattern Rule} {cur stop : Cursor}
    {xs : List (Node Rule)} (h : Derives grammar ctx p cur xs stop) {settled : Bool}
    (hsettled : settled = true → (skipBlanks cur).rest = cur.rest)
    (hp : readsPlainly (ctx.atomicity = .spaced) settled p = true) (hstop : IsCuttable stop.rest) :
    IsCuttable cur.rest := by
  have hpassed {ctx : Context} {cur : Cursor} (hctx : decide (ctx.atomicity = .spaced) = true) :
      (skipBlanks (grammar.pass ctx cur)).rest = (grammar.pass ctx cur).rest := by
    have hpass := pass_pass ctx cur
    rw [Peg.Grammar.pass, if_pos (of_decide_eq_true hctx)] at hpass
    exact congrArg Cursor.rest hpass
  have hunsettled {cur : Cursor} : false = true → (skipBlanks cur).rest = cur.rest :=
    Bool.noConfusion
  induction h generalizing settled with
  | @word ctx cur w stop htake =>
    rw [readsPlainly, Bool.or_eq_true, Bool.and_eq_true, decide_eq_true_eq] at hp
    rw [Peg.rest_of_take? htake]
    rcases hp with hw | ⟨hp, rfl⟩
    · exact hstop.word hw
    · have hrest : cur.rest = '/' :: stop.rest := Peg.rest_of_take? htake
      have hskip := hsettled hp
      rw [skipBlanks, hrest] at hskip
      have hstands : (Segment.char '/').Stands stop.rest :=
        ⟨by decide, by decide, fun _ => opensNone_of_skipFrom hskip⟩
      exact hstop.cons hstands rfl
  | @char ctx cur p c cs hrest hc =>
    rw [hrest]
    refine hstop.char (.inl ?_)
    by_contra hplain
    rw [eq_false_of_isPlain hp (by simpa using hplain)] at hc
    cases hc
  | finish | absent | noRound | noMore | forbid => exact hstop
  | seq _ _ iha ihb =>
    rw [readsPlainly, Bool.and_eq_true] at hp
    exact iha hsettled hp.1 (isCuttable_of_pass (ihb hpassed hp.2 hstop))
  | left _ ih =>
    rw [readsPlainly, Bool.and_eq_true] at hp
    exact ih hsettled hp.1 hstop
  | right _ ih =>
    rw [readsPlainly, Bool.and_eq_true] at hp
    exact ih hsettled hp.2 hstop
  | present _ ih => exact ih hsettled hp hstop
  | round _ _ iha ihrest =>
    rw [readsPlainly, Bool.and_eq_true] at hp
    exact iha hsettled hp.1 (ihrest hunsettled hp.2 hstop)
  | more _ _ iha ihrest =>
    exact isCuttable_of_pass (iha hpassed hp (ihrest hunsettled hp hstop))
  | @silent ctx r cur stop xs hr _ ih =>
    have hstring : r ≠ .stringLit := by
      rintro rfl
      cases hr
    obtain ⟨hbody, hdiv⟩ := readsPlainly_inner hp hstring
    rw [hr] at hbody
    exact ih (fun h => hsettled (hdiv h)) hbody hstop
  | @call ctx r cur stop xs _ hderives ih =>
    by_cases hstring : r = .stringLit
    · subst hstring
      have hctx : (ctx.inner (grammar.manner .stringLit)).atomicity ≠ .spaced :=
        Peg.Atomicity.noConfusion
      obtain ⟨cs, hcs, hspells⟩ := hderives.spells hctx
      obtain ⟨quote, body, hquote, hbody, rfl⟩ := spells_stringLit_iff.mp hspells
      have hstands : (Segment.quoted quote body).Stands stop.rest := ⟨hquote, hbody⟩
      rw [hcs]
      exact hstop.cons hstands rfl
    · obtain ⟨hbody, hdiv⟩ := readsPlainly_inner hp hstring
      exact ih (fun h => hsettled (hdiv h)) hbody hstop

theorem rest_eq_nil_of_program {ctx : Context} {cur stop : Cursor} {xs : List (Node Rule)}
    (h : Derives grammar ctx (.call .program) cur xs stop) : stop.rest = [] := by
  have hfinish {ctx : Context} {cur : Cursor} {xs : List (Node Rule)}
      (h : Derives grammar ctx (.call .finish) cur xs stop) : stop.rest = [] := by
    cases h with
    | silent _ hbody | call _ hbody =>
      cases hbody with
      | finish hrest => exact hrest
  cases h with
  | silent hr => cases hr
  | call _ hbody =>
    cases hbody with
    | seq _ hbehind =>
      cases hbehind with
      | seq _ hcall => exact hfinish hcall

/-- **Every text that is read falls into parts in one way**, with all its comments to become spaces. -/
theorem existsUnique_cut_of_read {text : String} {body : List Stmt} (h : read text = .ok body) :
    ∃! segs, AreCut segs ∧ written segs = text.toList ∧ ∀ s ∈ segs, s.isKept = false := by
  obtain ⟨nodes, stop, log, span, hmatched, hpieces⟩ := parse_of_read h
  have hderives := Peg.Grammar.derives_of_run hmatched
  have hend : IsCuttable stop.rest := by
    rw [rest_eq_nil_of_program hderives]
    exact .nil
  have hunsettled : false = true → (skipBlanks (Cursor.start text.toList)).rest = text.toList :=
    Bool.noConfusion
  obtain ⟨segs, hcut, htext, hkept⟩ := isCuttable_of_derives hderives hunsettled rfl hend
  refine ⟨segs, ⟨hcut, htext, hkept⟩, ?_⟩
  rintro segs' ⟨hcut', htext', hkept'⟩
  exact hcut'.unique hcut hkept' hkept (htext'.trans htext.symm)

end LuaSnippet.Script
