import LuaSnippet.Script.Blank
import LuaSnippet.Proofs.Script.Layout
import Mathlib.Data.List.Infix

/-!
# Comments in the text of a script

The text of a script consists of string literals, comments, and characters outside of both. Each of
these parts is judged with what follows it present, so that no two of them join to something else, and
a text falls into parts in one way only (`AreCut.unique`). A comment that is not kept gives way to a
space: the parts stay what they were, and a reader who passes over blanks comes to the same place
(`rest_skipFrom_written`).
-/

namespace LuaSnippet.Script

/-- A part of the text of a script: a character, a string literal with what stands between its quotes,
or a comment with what it says. A comment is to be kept, or to become a space. -/
inductive Segment where
  | char (c : Char)
  | quoted (quote : Char) (body : List Char)
  | line (body : List Char) (isKept : Bool)
  | block (body : List Char) (isKept : Bool)
deriving DecidableEq, Repr

namespace Segment

def text : Segment → List Char
  | char c => [c]
  | quoted quote body => quote :: (body ++ [quote])
  | line body _ => '/' :: '/' :: body
  | block body _ => '/' :: '*' :: (body ++ ['*', '/'])

/-- Whether a reader passes over a part between two tokens. -/
def isBlank : Segment → Bool
  | char c => isSpace c
  | quoted _ _ => false
  | line _ _ | block _ _ => true

/-- Whether a part is a comment that is to be kept. -/
def isKept : Segment → Bool
  | char _ | quoted _ _ => false
  | line _ isKept | block _ isKept => isKept

/-- What a part becomes: a comment that is not kept becomes a space. -/
def spaced : Segment → Segment
  | line _ false | block _ false => char ' '
  | s => s

/-- Whether a slash in front of some text opens no comment: no second slash follows, and no star that
is closed again. -/
def OpensNone (rest : List Char) : Prop :=
  rest.head? ≠ some '/' ∧ (rest.head? = some '*' → ¬ ['*', '/'] <:+: rest.tail)

/-- Whether a part is what it is if some text follows: a slash outside of literals opens no comment, a
literal is one, and a comment ends where it is said to end. -/
def Stands (rest : List Char) : Segment → Prop
  | char c => c ≠ '"' ∧ c ≠ '\'' ∧ (c = '/' → OpensNone rest)
  | quoted quote body => (quote = '"' ∨ quote = '\'') ∧ AreQuotable quote body
  | line body _ => (∀ c ∈ body, isLineEnd c = false) ∧ ∀ c ∈ rest.head?, isLineEnd c = true
  | block body _ => ¬ ['*', '/'] <:+: body

instance (rest : List Char) : Decidable (OpensNone rest) := by
  unfold OpensNone
  infer_instance

instance (rest : List Char) : ∀ s : Segment, Decidable (s.Stands rest)
  | char c => inferInstanceAs (Decidable (c ≠ '"' ∧ c ≠ '\'' ∧ (c = '/' → OpensNone rest)))
  | quoted quote body =>
    inferInstanceAs (Decidable ((quote = '"' ∨ quote = '\'') ∧ AreQuotable quote body))
  | line body _ =>
    decidable_of_iff (body.all (!isLineEnd ·) = true ∧ rest.head?.all isLineEnd = true)
      (by simp [Stands, Option.all_eq_true])
  | block body _ => inferInstanceAs (Decidable (¬ ['*', '/'] <:+: body))

variable {s : Segment} {xs ys : List Char}

theorem isBlank_spaced (s : Segment) : s.spaced.isBlank = s.isBlank := by
  cases s with
  | char | quoted => rfl
  | line _ isKept | block _ isKept => cases isKept <;> rfl

theorem text_ne_nil (s : Segment) : s.text ≠ [] := by
  cases s <;> exact List.cons_ne_nil _ _

theorem head?_text_append (s : Segment) (xs : List Char) :
    (s.text ++ xs).head? = s.text.head? := by
  cases s <;> rfl

theorem head?_text_spaced (s : Segment) :
    s.spaced.text.head? = s.text.head? ∨
      s.text.head? = some '/' ∧ s.spaced.text.head? = some ' ' := by
  cases s with
  | char | quoted => exact .inl rfl
  | line _ isKept | block _ isKept =>
    cases isKept with
    | true => exact .inl rfl
    | false => exact .inr ⟨rfl, rfl⟩

theorem OpensNone.of_append (h : OpensNone (xs ++ ys)) : OpensNone xs := by
  cases xs with
  | nil => exact ⟨nofun, nofun⟩
  | cons c xs => exact ⟨h.1, fun hc hopens => h.2 hc (hopens.trans (List.infix_append' [] xs ys))⟩

theorem Stands.of_append (h : s.Stands (xs ++ ys)) : s.Stands xs := by
  cases s with
  | char => exact ⟨h.1, h.2.1, fun hc => (h.2.2 hc).of_append⟩
  | line =>
    cases xs with
    | nil => exact ⟨h.1, nofun⟩
    | cons => exact h
  | quoted | block => exact h

end Segment

/-! ### Texts -/

/-- The text that some parts form. -/
def written (segs : List Segment) : List Char := segs.flatMap Segment.text

/-- Whether a text falls into some parts: each of them stands where it is. -/
inductive AreCut : List Segment → Prop where
  | nil : AreCut []
  | cons {s : Segment} {segs : List Segment} (hs : s.Stands (written segs)) (h : AreCut segs) :
    AreCut (s :: segs)

instance AreCut.decidable : ∀ segs, Decidable (AreCut segs)
  | [] => .isTrue .nil
  | s :: segs =>
    have := AreCut.decidable segs
    decidable_of_iff (s.Stands (written segs) ∧ AreCut segs)
      ⟨fun ⟨hs, h⟩ => .cons hs h, fun h => by
        cases h with
        | cons hs h => exact ⟨hs, h⟩⟩

variable {segs used left : List Segment}

@[simp] theorem written_nil : written [] = [] := rfl

@[simp] theorem written_cons (s : Segment) (segs : List Segment) :
    written (s :: segs) = s.text ++ written segs := rfl

theorem written_append (used left : List Segment) :
    written (used ++ left) = written used ++ written left := List.flatMap_append

theorem AreCut.of_append (h : AreCut (used ++ left)) : AreCut used ∧ AreCut left := by
  induction used with
  | nil => exact ⟨.nil, h⟩
  | cons s used ih =>
    rw [List.cons_append] at h
    cases h with
    | cons hs h =>
      obtain ⟨hused, hleft⟩ := ih h
      rw [written_append] at hs
      exact ⟨.cons hs.of_append hused, hleft⟩

/-! ### One way to cut a text -/

section

variable {s s' : Segment} {segs segs' : List Segment} {body body' rest rest' more : List Char}

theorem eq_of_areQuotable {quote : Char} (hquote : quote ≠ '\\') (h : AreQuotable quote body)
    (h' : AreQuotable quote body') (heq : body ++ quote :: rest = body' ++ quote :: rest') :
    body = body' ∧ rest = rest' := by
  induction h generalizing body' with
  | nil =>
    cases h' with
    | nil => exact ⟨rfl, (List.cons.inj heq).2⟩
    | escape => exact absurd (List.cons.inj heq).1 hquote
    | plain hne => exact absurd (List.cons.inj heq).1.symm hne
  | @escape c cs _ ih =>
    cases h' with
    | nil => exact absurd (List.cons.inj heq).1.symm hquote
    | escape h' =>
      obtain ⟨rfl, htail⟩ := List.cons.inj (List.cons.inj heq).2
      obtain ⟨rfl, hrest⟩ := ih h' htail
      exact ⟨rfl, hrest⟩
    | plain _ hescape => exact absurd (List.cons.inj heq).1.symm hescape
  | @plain c cs hne hescape _ _ ih =>
    cases h' with
    | nil => exact absurd (List.cons.inj heq).1 hne
    | escape => exact absurd (List.cons.inj heq).1 hescape
    | plain _ _ _ h' =>
      obtain ⟨rfl, htail⟩ := List.cons.inj heq
      obtain ⟨rfl, hrest⟩ := ih h' htail
      exact ⟨rfl, hrest⟩

theorem eq_nil_of_isLineEnd (hmore : ∀ c ∈ body ++ more, isLineEnd c = false)
    (hrest : ∀ c ∈ (more ++ rest').head?, isLineEnd c = true) : more = [] := by
  cases more with
  | nil => rfl
  | cons c cs =>
    have hc := hmore c (List.mem_append_right _ List.mem_cons_self)
    rw [hrest c rfl] at hc
    cases hc

theorem eq_of_isLineEnd (h : ∀ c ∈ body, isLineEnd c = false) (h' : ∀ c ∈ body', isLineEnd c = false)
    (hrest : ∀ c ∈ rest.head?, isLineEnd c = true) (hrest' : ∀ c ∈ rest'.head?, isLineEnd c = true)
    (heq : body ++ rest = body' ++ rest') : body = body' ∧ rest = rest' := by
  rcases List.append_eq_append_iff.mp heq with ⟨more, rfl, rfl⟩ | ⟨more, rfl, rfl⟩
  · obtain rfl := eq_nil_of_isLineEnd h' hrest
    exact ⟨(List.append_nil _).symm, rfl⟩
  · obtain rfl := eq_nil_of_isLineEnd h hrest'
    exact ⟨List.append_nil _, rfl⟩

theorem eq_nil_of_closed (hmore : ¬ ['*', '/'] <:+: body ++ more)
    (heq : '*' :: '/' :: rest = more ++ '*' :: '/' :: rest') : more = [] := by
  match more with
  | [] => rfl
  | [c] => exact absurd (List.cons.inj (List.cons.inj heq).2).1 (by decide)
  | c :: d :: cs =>
    obtain ⟨rfl, htail⟩ := List.cons.inj heq
    obtain ⟨rfl, -⟩ := List.cons.inj htail
    exact absurd ⟨body, cs, by simp⟩ hmore

theorem eq_of_closed (h : ¬ ['*', '/'] <:+: body) (h' : ¬ ['*', '/'] <:+: body')
    (heq : body ++ '*' :: '/' :: rest = body' ++ '*' :: '/' :: rest') :
    body = body' ∧ rest = rest' := by
  rcases List.append_eq_append_iff.mp heq with ⟨more, rfl, hmore⟩ | ⟨more, rfl, hmore⟩
  · obtain rfl := eq_nil_of_closed h' hmore
    exact ⟨(List.append_nil _).symm, (List.cons.inj (List.cons.inj hmore).2).2⟩
  · obtain rfl := eq_nil_of_closed h hmore
    exact ⟨List.append_nil _, (List.cons.inj (List.cons.inj hmore).2).2.symm⟩

namespace Segment

theorem eq_of_char {c : Char} (hc : (char c).Stands rest) (hs : s.Stands rest')
    (heq : c :: rest = s.text ++ rest') : char c = s ∧ rest = rest' := by
  obtain ⟨hdouble, hsingle, hopens⟩ := hc
  cases s with
  | char d =>
    obtain ⟨rfl, hrest⟩ := List.cons.inj heq
    exact ⟨rfl, hrest⟩
  | quoted quote body =>
    obtain ⟨rfl, -⟩ := List.cons.inj heq
    exact absurd hs.1 (not_or.mpr ⟨hdouble, hsingle⟩)
  | line body =>
    obtain ⟨rfl, rfl⟩ := List.cons.inj heq
    exact absurd rfl (hopens rfl).1
  | block body =>
    obtain ⟨rfl, rfl⟩ := List.cons.inj heq
    exact absurd ⟨body, rest', by simp⟩ ((hopens rfl).2 rfl)

/-- **What a text starts with is determined by the text**, if no comment is to be kept. -/
theorem eq_of_stands (hs : s.Stands rest) (hs' : s'.Stands rest') (hkept : s.isKept = false)
    (hkept' : s'.isKept = false) (heq : s.text ++ rest = s'.text ++ rest') :
    s = s' ∧ rest = rest' := by
  have hslash {quote : Char} (hquote : quote = '"' ∨ quote = '\'') : quote ≠ '/' := by
    rcases hquote with rfl | rfl <;> decide
  have hescape {quote : Char} (hquote : quote = '"' ∨ quote = '\'') : quote ≠ '\\' := by
    rcases hquote with rfl | rfl <;> decide
  match s, s' with
  | char _, _ => exact eq_of_char hs hs' heq
  | _, char _ =>
    obtain ⟨hchar, hrest⟩ := eq_of_char hs' hs heq.symm
    exact ⟨hchar.symm, hrest.symm⟩
  | quoted quote body, quoted quote' body' =>
    obtain ⟨rfl, htail⟩ : quote = quote' ∧ body ++ quote :: rest = body' ++ quote' :: rest' := by
      simpa [text] using heq
    obtain ⟨rfl, hrest⟩ := eq_of_areQuotable (hescape hs.1) hs.2 hs'.2 htail
    exact ⟨rfl, hrest⟩
  | line body false, line body' false =>
    obtain ⟨rfl, hrest⟩ := eq_of_isLineEnd hs.1 hs'.1 hs.2 hs'.2 (by simpa [text] using heq)
    exact ⟨rfl, hrest⟩
  | block body false, block body' false =>
    obtain ⟨rfl, hrest⟩ := eq_of_closed hs hs' (by simpa [text] using heq)
    exact ⟨rfl, hrest⟩
  | quoted _ _, line _ _ | quoted _ _, block _ _ =>
    exact absurd (List.cons.inj heq).1 (hslash hs.1)
  | line _ _, quoted _ _ | block _ _, quoted _ _ =>
    exact absurd (List.cons.inj heq).1.symm (hslash hs'.1)
  | line _ _, block _ _ | block _ _, line _ _ =>
    exact absurd (List.cons.inj (List.cons.inj heq).2).1 (by decide)

end Segment

/-- **A text falls into parts in one way only**, if all its comments are to become spaces. -/
theorem AreCut.unique (h : AreCut segs) (h' : AreCut segs') (hkept : ∀ s ∈ segs, s.isKept = false)
    (hkept' : ∀ s ∈ segs', s.isKept = false) (heq : written segs = written segs') : segs = segs' := by
  induction h generalizing segs' with
  | nil =>
    cases h' with
    | nil => rfl
    | @cons s => exact absurd (List.append_eq_nil_iff.mp heq.symm).1 s.text_ne_nil
  | @cons s segs hs _ ih =>
    cases h' with
    | nil => exact absurd (List.append_eq_nil_iff.mp heq).1 s.text_ne_nil
    | @cons s' segs' hs' h' =>
      obtain ⟨hfirst, hothers⟩ := List.forall_mem_cons.mp hkept
      obtain ⟨hfirst', hothers'⟩ := List.forall_mem_cons.mp hkept'
      rw [written_cons, written_cons] at heq
      obtain ⟨rfl, hrest⟩ := Segment.eq_of_stands hs hs' hfirst hfirst' heq
      rw [ih h' hothers hothers' hrest]

end

/-! ### Spaces for comments -/

theorem head?_written_spaced (segs : List Segment) :
    (written (segs.map Segment.spaced)).head? = (written segs).head? ∨
      (written segs).head? = some '/' ∧
        (written (segs.map Segment.spaced)).head? = some ' ' := by
  cases segs with
  | nil => exact .inl rfl
  | cons s segs =>
    rw [List.map_cons, written_cons, written_cons, s.head?_text_append,
      s.spaced.head?_text_append]
    exact s.head?_text_spaced

theorem infix_append_of_infix {xs ys ys' : List Char}
    (hhead : ys'.head? = some '/' → ys.head? = some '/')
    (hys : ['*', '/'] <:+: ys' → ['*', '/'] <:+: ys) (h : ['*', '/'] <:+: xs ++ ys') :
    ['*', '/'] <:+: xs ++ ys := by
  induction xs with
  | nil => exact hys h
  | cons c xs ih =>
    rw [List.cons_append] at h ⊢
    rcases List.infix_cons_iff.mp h with hprefix | hopens
    · obtain ⟨rfl, zs, hzs⟩ := List.cons_prefix_cons.mp hprefix
      suffices hslash : (xs ++ ys).head? = some '/' by
        obtain ⟨rest, hrest⟩ := List.head?_eq_some_iff.mp hslash
        exact ⟨[], rest, by rw [hrest]; rfl⟩
      cases xs with
      | nil => exact hhead (by rw [← List.nil_append ys', ← hzs]; rfl)
      | cons d xs =>
        obtain ⟨rfl, -⟩ := List.cons.inj hzs
        rfl
    · exact List.infix_cons (ih hopens)

theorem infix_written_of_spaced (h : ['*', '/'] <:+: written (segs.map Segment.spaced)) :
    ['*', '/'] <:+: written segs := by
  induction segs with
  | nil => exact h
  | cons s segs ih =>
    rw [List.map_cons, written_cons] at h
    rw [written_cons]
    have hhead : (written (segs.map Segment.spaced)).head? = some '/' →
        (written segs).head? = some '/' := by
      intro hslash
      rcases head?_written_spaced segs with hsame | ⟨hslash', -⟩
      · rwa [← hsame]
      · exact hslash'
    have hopens := infix_append_of_infix hhead ih h
    by_cases hs : s.spaced = s
    · rwa [hs] at hopens
    · have hspace : s.spaced.text = [' '] := by
        cases s with
        | char | quoted => exact absurd rfl hs
        | line _ isKept | block _ isKept =>
          cases isKept with
          | true => exact absurd rfl hs
          | false => rfl
      rw [hspace, List.singleton_append] at hopens
      rcases List.infix_cons_iff.mp hopens with hprefix | hopens
      · cases (List.cons_prefix_cons.mp hprefix).1
      · exact hopens.trans (List.suffix_append s.text (written segs)).isInfix

theorem AreCut.opensNone_spaced (hcut : AreCut segs) (h : Segment.OpensNone (written segs)) :
    Segment.OpensNone (written (segs.map Segment.spaced)) := by
  cases hcut with
  | nil => exact h
  | @cons s left hs _ =>
    cases s with
    | char c => exact ⟨h.1, fun hc hopens => h.2 hc (infix_written_of_spaced hopens)⟩
    | quoted quote body =>
      obtain ⟨rfl | rfl, -⟩ := hs
      · exact ⟨nofun, nofun⟩
      · exact ⟨nofun, nofun⟩
    | line | block => exact absurd rfl h.1

/-- **A text whose comments become spaces has the same parts otherwise.** -/
theorem AreCut.spaced (h : AreCut segs) : AreCut (segs.map Segment.spaced) := by
  induction h with
  | nil => exact .nil
  | @cons s segs hs h ih =>
    refine .cons ?_ ih
    cases s with
    | char c => exact ⟨hs.1, hs.2.1, fun hc => h.opensNone_spaced (hs.2.2 hc)⟩
    | quoted => exact hs
    | line body isKept =>
      cases isKept with
      | false => exact ⟨by decide, by decide, fun h => absurd h (by decide)⟩
      | true =>
        refine ⟨hs.1, ?_⟩
        rcases head?_written_spaced segs with hsame | ⟨hslash, -⟩
        · rw [hsame]
          exact hs.2
        · exact absurd (hs.2 '/' hslash) (by decide)
    | block body isKept =>
      cases isKept with
      | false => exact ⟨by decide, by decide, fun h => absurd h (by decide)⟩
      | true => exact hs

theorem dropWhile_isBlank_spaced (segs : List Segment) :
    (segs.map Segment.spaced).dropWhile Segment.isBlank =
      (segs.dropWhile Segment.isBlank).map Segment.spaced := by
  have hsame : Segment.isBlank ∘ Segment.spaced = Segment.isBlank :=
    funext Segment.isBlank_spaced
  rw [List.dropWhile_map, hsame]

/-! ### Passing over blanks -/

theorem isSpace_of_isLineEnd {c : Char} (hc : isLineEnd c = true) : isSpace c = true := by
  simp only [isLineEnd, Bool.or_eq_true, decide_eq_true_eq] at hc
  rcases hc with rfl | rfl <;> rfl

theorem skipFrom_space {c : Char} (hc : isSpace c = true) (n : Nat) (rest : List Char) :
    skipFrom .between n (c :: rest) = skipFrom .between (n + c.utf8Size) rest := by
  cases rest <;> simp [skipFrom, hc]

theorem skipFrom_unclosed {cs : List Char} (hcs : ¬ ['*', '/'] <:+: cs) (opened : Peg.Cursor)
    (n : Nat) : skipFrom (.block opened) n cs = opened := by
  induction cs generalizing n with
  | nil => rfl
  | cons c cs ih =>
    have hrest := ih (fun h => hcs (List.infix_cons h))
    cases cs with
    | nil =>
      rw [skipFrom]
      split
      · rfl
      · exact hrest _
    | cons d ds =>
      have hclose : c = '*' → d ≠ '/' := by
        rintro rfl rfl
        exact hcs ⟨[], ds, rfl⟩
      rw [skipFrom]
      split
      next hc =>
        rw [if_neg (hclose hc)]
        exact hrest _
      · exact hrest _

theorem rest_skipFrom_of_not_blank {c : Char} {rest : List Char} (hspace : isSpace c = false)
    (hslash : c = '/' → Segment.OpensNone rest) (n : Nat) :
    (skipFrom .between n (c :: rest)).rest = c :: rest := by
  cases rest with
  | nil => simp [skipFrom, hspace]
  | cons d rest =>
    rw [skipFrom, if_neg (by simp [hspace])]
    split
    next hc =>
      obtain ⟨hline, hblock⟩ := hslash hc
      rw [if_neg (by simpa using hline)]
      split
      next hd =>
        subst hd
        have hopen : ¬ ['*', '/'] <:+: rest := hblock rfl
        rw [skipFrom_unclosed hopen]
      · rfl
    · rfl

theorem skipFrom_line {body rest : List Char} (hbody : ∀ c ∈ body, isLineEnd c = false)
    (hrest : ∀ c ∈ rest.head?, isLineEnd c = true) (n : Nat) :
    ∃ m, skipFrom .line n (body ++ rest) = skipFrom .between m rest := by
  induction body generalizing n with
  | nil =>
    cases rest with
    | nil => exact ⟨n, by simp [skipFrom]⟩
    | cons c rest =>
      have hc : isLineEnd c = true := hrest c rfl
      refine ⟨n, ?_⟩
      rw [skipFrom_space (isSpace_of_isLineEnd hc), List.nil_append, skipFrom, if_pos hc]
  | cons c body ih =>
    obtain ⟨hc, hbody⟩ := List.forall_mem_cons.mp hbody
    rw [List.cons_append, skipFrom, if_neg (by simp [hc])]
    exact ih hbody _

theorem skipFrom_block {body : List Char} (hbody : ¬ ['*', '/'] <:+: body) (opened : Peg.Cursor)
    (n : Nat) (rest : List Char) :
    ∃ m, skipFrom (.block opened) n (body ++ '*' :: '/' :: rest) = skipFrom .between m rest := by
  induction body generalizing n with
  | nil => exact ⟨n + 2, by simp [skipFrom]⟩
  | cons c body ih =>
    obtain ⟨m, hm⟩ := ih (fun h => hbody (List.infix_cons h)) (n + c.utf8Size)
    refine ⟨m, ?_⟩
    rw [← hm, List.cons_append]
    cases body with
    | nil => simp [skipFrom]
    | cons d body =>
      have hclose : c = '*' → d ≠ '/' := by
        rintro rfl rfl
        exact hbody ⟨[], body, rfl⟩
      rw [List.cons_append, skipFrom]
      split
      next hc => rw [if_neg (hclose hc)]
      · rfl

/-- **Passing over blanks leads behind the blank parts of a text.** -/
theorem rest_skipFrom_written (h : AreCut segs) (n : Nat) :
    (skipFrom .between n (written segs)).rest = written (segs.dropWhile Segment.isBlank) := by
  induction h generalizing n with
  | nil => rfl
  | @cons s segs hs _ ih =>
    cases hblank : s.isBlank with
    | false =>
      rw [List.dropWhile_cons_of_neg (by simp [hblank])]
      cases s with
      | char c => exact rest_skipFrom_of_not_blank hblank hs.2.2 n
      | quoted quote body =>
        obtain ⟨rfl | rfl, -⟩ := hs
        · exact rest_skipFrom_of_not_blank rfl (fun h => absurd h (by decide)) n
        · exact rest_skipFrom_of_not_blank rfl (fun h => absurd h (by decide)) n
      | line | block => cases hblank
    | true =>
      rw [List.dropWhile_cons_of_pos hblank]
      cases s with
      | char c =>
        rw [← ih (n + c.utf8Size)]
        exact congrArg Peg.Cursor.rest (skipFrom_space hblank n _)
      | quoted => cases hblank
      | line body isKept =>
        obtain ⟨m, hm⟩ := skipFrom_line hs.1 hs.2 (n + 2)
        rw [← ih m, ← hm]
        exact congrArg Peg.Cursor.rest (skipFrom.eq_5 n '/' '/' _)
      | block body isKept =>
        obtain ⟨m, hm⟩ := skipFrom_block hs
          ⟨n, '/' :: '*' :: (body ++ '*' :: '/' :: written segs)⟩ (n + 2) (written segs)
        rw [← ih m, ← hm, written_cons, Segment.text, List.cons_append, List.cons_append,
          List.append_assoc]
        exact congrArg Peg.Cursor.rest (skipFrom.eq_5 n '/' '*' _)

end LuaSnippet.Script
