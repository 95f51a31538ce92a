import LuaSnippet.Proofs.Lua.Grammar
import LuaSnippet.Text.Blank

/-!
# Trimming a Lua text

A text is trimmed of what is white space for Unicode, and Lua knows less of it. Of a Lua text that makes
no difference: no token but white space starts or ends with a character that is trimmed. So a trimmed
text has the same tokens, without some white space at its ends (`solidGroups?_trim`).
-/

namespace LuaSnippet.Lua

open Text (trimEnd trimChars)

/-! ### The ends of tokens -/

theorem trimmed_of_isBlank {c : Char} (hc : isBlank c = true) : Text.isBlank c = true := by
  simp only [isBlank, Bool.or_eq_true, decide_eq_true_eq] at hc
  rcases hc with rfl | hc
  · rfl
  · simp [Text.isBlank, hc]

theorem isAlphanum_of_trimmed {c : Char} (hc : Text.isBlank c = true) : c.isAlphanum = false := by
  rw [Bool.eq_false_iff, ne_eq, Char.isAlphanum, Bool.or_eq_true, isAlpha_iff, isDigit_iff]
  simp only [Text.isBlank, Bool.or_eq_true, Bool.and_eq_true, decide_eq_true_eq, beq_iff_eq] at hc
  omega

theorem ne_of_trimmed {c d : Char} (hc : Text.isBlank c = true) (hd : Text.isBlank d = false) :
    c ≠ d := by
  rintro rfl
  rw [hc] at hd
  cases hd

theorem notMem_signs_of_trimmed {c : Char} (hc : Text.isBlank c = true) (cs : List Char) :
    cs ++ [c] ∉ signs := by
  have hsigns : (signs.all fun s => s.all fun d => !Text.isBlank d) = true := by decide
  intro hmem
  have hlast := List.all_eq_true.mp (List.all_eq_true.mp hsigns _ hmem) c (by simp)
  exact ne_of_trimmed hc (by simpa using hlast) rfl

namespace Token

theorem not_trimmed_of_begin? {c : Char} {t : Token} (h : begin? c = some t)
    (ht : t.kind ≠ .blank) : Text.isBlank c = false := by
  by_contra htrimmed
  rw [Bool.not_eq_false] at htrimmed
  have hblank : isBlank c = false := by
    by_contra hblank
    rw [begin?, if_pos (Bool.not_eq_false _ |>.mp hblank)] at h
    obtain rfl := Option.some.inj h
    exact ht rfl
  have hsign : [c] ∉ signs := notMem_signs_of_trimmed htrimmed []
  have hline := ne_of_trimmed htrimmed (d := '_') (by decide)
  have hdouble := ne_of_trimmed htrimmed (d := '"') (by decide)
  have hsingle := ne_of_trimmed htrimmed (d := '\'') (by decide)
  simp [begin?, hblank, isAlphanum_of_trimmed htrimmed, hsign, hline, hdouble, hsingle] at h

/-- Whether a string literal starts with a quote. -/
def IsQuoted (t : Token) : Prop :=
  ∀ q, t.kind = .text q → t.chars.head? = some '"' ∨ t.chars.head? = some '\''

theorem isQuoted_of_begin? {c : Char} {t : Token} (h : begin? c = some t) : t.IsQuoted := by
  intro q hq
  unfold begin? at h
  split at h
  · obtain rfl := Option.some.inj h
    cases hq
  · split at h
    · obtain rfl := Option.some.inj h
      cases hq
    · split at h
      · rename_i hquote
        obtain rfl := Option.some.inj h
        simpa using hquote
      · split at h
        · obtain rfl := Option.some.inj h
          cases hq
        · cases h

theorem chars_of_extend? {t u : Token} {c : Char} (h : t.extend? c = some u) :
    u.chars = t.chars ++ [c] ∧ u.kind ≠ .blank ∧
      ((∃ q, u.kind = .text q) → ∃ q, t.kind = .text q) := by
  obtain ⟨kind, chars⟩ := t
  unfold extend? at h
  split at h
  · cases h
  · split at h
    · obtain rfl := Option.some.inj h
      exact ⟨rfl, nofun, nofun⟩
    · cases h
  · split at h
    · rename_i hpoint
      obtain rfl := Option.some.inj h
      have hchars : chars = ['.'] := hpoint.1
      exact ⟨by rw [hchars]; rfl, nofun, nofun⟩
    · split at h
      · obtain rfl := Option.some.inj h
        exact ⟨rfl, nofun, nofun⟩
      · cases h
  · cases h
  · rename_i hkind
    obtain rfl := Option.some.inj h
    exact ⟨rfl, nofun, fun _ => ⟨_, hkind⟩⟩
  · rename_i hkind
    split at h
    · cases h
    · split at h
      · obtain rfl := Option.some.inj h
        exact ⟨rfl, nofun, fun _ => ⟨_, hkind⟩⟩
      · split at h
        · obtain rfl := Option.some.inj h
          exact ⟨rfl, nofun, fun _ => ⟨_, hkind⟩⟩
        · obtain rfl := Option.some.inj h
          exact ⟨rfl, nofun, fun _ => ⟨_, hkind⟩⟩

theorem IsQuoted.extend? {t u : Token} {c : Char} (ht : t.IsQuoted) (h : t.extend? c = some u) :
    u.IsQuoted := by
  obtain ⟨hchars, -, htext⟩ := chars_of_extend? h
  intro q hq
  obtain ⟨q', hq'⟩ := htext ⟨q, hq⟩
  rw [hchars]
  rcases ht q' hq' with hhead | hhead
  · exact .inl (by simp [hhead])
  · exact .inr (by simp [hhead])

theorem IsQuoted.foldlM {cs : List Char} {t u : Token} (ht : t.IsQuoted)
    (h : cs.foldlM Token.extend? t = some u) : u.IsQuoted := by
  induction cs generalizing t with
  | nil =>
    obtain rfl := Option.some.inj h
    exact ht
  | cons c cs ih =>
    obtain ⟨t', ht', hrest⟩ := Option.bind_eq_some_iff.mp h
    exact ih (ht.extend? ht') hrest

theorem not_trimmed_of_extend? {t u : Token} {c : Char} (hquoted : t.IsQuoted)
    (h : t.extend? c = some u) (hu : u.isWhole = true) : Text.isBlank c = false := by
  by_contra htrimmed
  rw [Bool.not_eq_false] at htrimmed
  have hword := isAlphanum_of_trimmed htrimmed
  obtain ⟨kind, chars⟩ := t
  cases kind with
  | blank => cases h
  | word =>
    have hline := ne_of_trimmed htrimmed (d := '_') (by decide)
    have hpoint := ne_of_trimmed htrimmed (d := '.') (by decide)
    have hplus := ne_of_trimmed htrimmed (d := '+') (by decide)
    have hminus := ne_of_trimmed htrimmed (d := '-') (by decide)
    simp [extend?, goesOn, hword, hline, hpoint, hplus, hminus] at h
  | sign =>
    have hdigit : c.isDigit = false := by
      rw [Char.isAlphanum, Bool.or_eq_false_iff] at hword
      exact hword.2
    simp [extend?, hdigit, notMem_signs_of_trimmed htrimmed] at h
  | text q =>
    have hdouble := ne_of_trimmed htrimmed (d := '"') (by decide)
    have hsingle := ne_of_trimmed htrimmed (d := '\'') (by decide)
    have hhead : chars.head? ≠ some c := by
      rcases hquoted q rfl with heq | heq
      · intro hc
        exact hdouble (Option.some.inj (hc.symm.trans heq))
      · intro hc
        exact hsingle (Option.some.inj (hc.symm.trans heq))
    -- Only a quote closes a string literal, and one that is not closed is no token.
    cases q with
    | closed => cases h
    | escaped =>
      obtain rfl := Option.some.inj h
      cases hu
    | inside =>
      simp only [extend?, if_neg hhead] at h
      split at h
      · cases h
      · split at h <;> · obtain rfl := Option.some.inj h; cases hu

theorem Valid.ends {t : Token} (ht : t.Valid) :
    (t.kind = .blank ∧ ∃ c, t.chars = [c] ∧ Text.isBlank c = true) ∨
      (t.kind ≠ .blank ∧ ∃ c d cs ds, t.chars = c :: cs ∧ t.chars = ds ++ [d] ∧
        Text.isBlank c = false ∧ Text.isBlank d = false) := by
  obtain ⟨hwhole, c, cs, u, hchars, hbegin, hextend⟩ := ht
  rcases List.eq_nil_or_concat cs with rfl | ⟨ds, d, rfl⟩
  · obtain rfl : u = t := Option.some.inj hextend
    by_cases hkind : u.kind = .blank
    · refine .inl ⟨hkind, c, hchars, ?_⟩
      by_contra htrimmed
      have hblank : isBlank c = false := by
        by_contra hblank
        exact htrimmed (trimmed_of_isBlank (Bool.not_eq_false _ |>.mp hblank))
      unfold begin? at hbegin
      rw [if_neg (by simp [hblank])] at hbegin
      split at hbegin
      · obtain rfl := Option.some.inj hbegin
        cases hkind
      · split at hbegin
        · obtain rfl := Option.some.inj hbegin
          cases hkind
        · split at hbegin
          · obtain rfl := Option.some.inj hbegin
            cases hkind
          · cases hbegin
    · have hc := not_trimmed_of_begin? hbegin hkind
      exact .inr ⟨hkind, c, c, [], [], hchars, hchars, hc, hc⟩
  · rw [List.concat_eq_append, List.foldlM_append, Option.bind_eq_bind,
      Option.bind_eq_some_iff] at hextend
    obtain ⟨v, hv, hlast⟩ := hextend
    rw [List.foldlM_cons, Option.bind_eq_bind, Option.bind_eq_some_iff] at hlast
    obtain ⟨t', ht', hsame⟩ := hlast
    obtain rfl : t' = t := Option.some.inj hsame
    have hkind : u.kind ≠ .blank := by
      intro hblank
      have hnone (x : Char) : u.extend? x = none := by rw [Token.extend?, hblank]
      cases ds with
      | nil =>
        obtain rfl : u = v := Option.some.inj hv
        rw [hnone] at ht'
        cases ht'
      | cons x ds =>
        rw [List.foldlM_cons, hnone] at hv
        cases hv
    refine .inr ⟨(chars_of_extend? ht').2.1, c, d, ds.concat d, c :: ds, hchars, ?_,
      not_trimmed_of_begin? hbegin hkind,
      not_trimmed_of_extend? ((isQuoted_of_begin? hbegin).foldlM hv) ht' hwhole⟩
    rw [hchars, List.concat_eq_append]
    rfl

/-! ### Trimmed tokens -/

theorem Spelled.of_cons {t : Token} {ts : List Token} (h : Spelled (t :: ts)) : Spelled ts :=
  ⟨fun u hu => h.1 u (List.mem_cons_of_mem _ hu), h.2.tail⟩

theorem Spelled.of_append {ts us : List Token} (h : Spelled (ts ++ us)) : Spelled ts :=
  ⟨fun t ht => h.1 t (List.mem_append_left _ ht), h.2.left_of_append⟩

theorem Spelled.dropWhile {ts : List Token} (h : Spelled ts) : ∃ us, Spelled us ∧
    (ts.flatMap (·.chars)).dropWhile Text.isBlank = us.flatMap (·.chars) ∧
      us.filter (·.kind ≠ .blank) = ts.filter (·.kind ≠ .blank) := by
  induction ts with
  | nil => exact ⟨[], h, rfl, rfl⟩
  | cons t ts ih =>
    rcases (h.1 t List.mem_cons_self).ends with ⟨hkind, c, hchars, hc⟩ |
      ⟨hkind, c, d, cs, ds, hchars, -, hc, -⟩
    · obtain ⟨us, hus, htext, hsolid⟩ := ih h.of_cons
      refine ⟨us, hus, ?_, ?_⟩
      · rw [List.flatMap_cons, hchars, List.singleton_append, List.dropWhile_cons, if_pos hc, htext]
      · rw [hsolid, List.filter_cons, if_neg (by simp [hkind])]
    · refine ⟨t :: ts, h, ?_, rfl⟩
      rw [List.flatMap_cons, hchars, List.cons_append, List.dropWhile_cons, if_neg (by simp [hc])]

theorem Spelled.trimEnd {ts : List Token} (h : Spelled ts) : ∃ us, Spelled us ∧
    trimEnd (ts.flatMap (·.chars)) = us.flatMap (·.chars) ∧
      us.filter (·.kind ≠ .blank) = ts.filter (·.kind ≠ .blank) := by
  induction ts using List.reverseRecOn with
  | nil => exact ⟨[], h, rfl, rfl⟩
  | append_singleton ts t ih =>
    rw [List.flatMap_append, List.flatMap_singleton]
    rcases (h.1 t (by simp)).ends with ⟨hkind, c, hchars, hc⟩ |
      ⟨hkind, c, d, cs, ds, -, hchars, -, hd⟩
    · obtain ⟨us, hus, htext, hsolid⟩ := ih h.of_append
      refine ⟨us, hus, ?_, ?_⟩
      · rw [hchars, Text.trimEnd, List.reverse_append, List.reverse_singleton,
          List.singleton_append, List.dropWhile_cons, if_pos hc]
        exact htext
      · rw [hsolid, List.filter_append]
        simp [hkind]
    · refine ⟨ts ++ [t], h, ?_, rfl⟩
      rw [hchars, ← List.append_assoc, Text.trimEnd, List.reverse_append, List.reverse_singleton,
        List.singleton_append, List.dropWhile_cons, if_neg (by simp [hd]), List.reverse_cons,
        List.reverse_reverse, List.flatMap_append, List.flatMap_singleton, hchars,
        List.append_assoc]

end Token

/-- **Groups are found again in their trimmed text.** -/
theorem solidGroups?_trim {gs : List Group} (hgs : Legible gs) (hbalanced : AllBalanced gs) :
    solidGroups? (Text.trim (String.ofList (charsOf gs))) = some (solidOf gs) := by
  obtain ⟨us, hus, hstart, hfirst⟩ := Token.Spelled.dropWhile hgs
  obtain ⟨vs, ⟨hvalid, hchain⟩, hend, hsolid⟩ := hus.trimEnd
  rw [solidGroups?, Text.trim, String.toList_ofList, String.toList_ofList, Text.trimChars, charsOf,
    hstart, hend, tokens?_flatMap hvalid hchain, Option.bind_some, hsolid, hfirst,
    ← tokensOf_solidOf gs hbalanced, groups?_tokensOf (allBalanced_solidOf gs hbalanced)]

end LuaSnippet.Lua
