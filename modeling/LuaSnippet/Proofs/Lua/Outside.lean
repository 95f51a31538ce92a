import LuaSnippet.Proofs.Lua.Strings
import LuaSnippet.Proofs.Lua.Trimmed

/-!
# Lua outside of its string literals

A Lua text is read from the left by the rules for short string literals alone: a quote opens one, and
the same quote closes it on the same line unless a backslash stands before it. What is left are the
characters outside, each in its place (`outside?`), and the words among them (`words`).

`outside?_flatMap`: of a text that is put together from tokens, the characters of all tokens but its
string literals are outside. None of them open a comment or a long bracket there
(`isChain_flatMap_seen`), and each word stands within one token (`words_flatMap_seen`).
-/

namespace LuaSnippet.Lua

/-! ### Reading by the rules for short strings -/

/-- Where a reader of a Lua text is: outside of its string literals, within one that a quote has
opened, or behind a backslash there. -/
inductive Reader where
  | outside
  | inside (q : Char)
  | escaped (q : Char)
deriving DecidableEq, Repr

/-- Where the reader is one character further on, unless a string literal breaks off at a line end;
and the character, if it stands outside of them. -/
def Reader.next? : Reader → Char → Option (Reader × Option Char)
  | .outside, c => some (if c = '"' ∨ c = '\'' then (.inside c, none) else (.outside, some c))
  | .inside q, c =>
    if c = '\n' ∨ c = '\r' then none
    else some (if c = q then .outside else if c = '\\' then .escaped q else .inside q, none)
  | .escaped q, c => if c = '\n' ∨ c = '\r' then none else some (.inside q, none)

/-- The characters of a text outside of its string literals, and nothing for each of the others, if
every literal is closed on its line. -/
def outsideFrom? : Reader → List Char → Option (List (Option Char))
  | .outside, [] => some []
  | _, [] => none
  | p, c :: cs => (p.next? c).bind fun next => (outsideFrom? next.1 cs).map (next.2 :: ·)

/-- The characters of a text outside of its string literals, read from the left. -/
def outside? (cs : List Char) : Option (List (Option Char)) :=
  outsideFrom? .outside cs

def isWordChar (c : Char) : Bool :=
  c.isAlphanum || c = '_'

/-- Whether a word starts at the front of what is seen. -/
def startsWord (cs : List (Option Char)) : Bool :=
  cs.head?.join.any isWordChar

def endsWord (cs : List (Option Char)) : Bool :=
  cs.getLast?.join.any isWordChar

/-- The words of what is seen: letters, digits and underscores side by side, as many as there are. -/
def words : List (Option Char) → List (List Char)
  | [] => []
  | none :: cs => words cs
  | some c :: cs =>
    if isWordChar c then
      match startsWord cs, words cs with
      | true, w :: ws => (c :: w) :: ws
      | _, ws => [c] :: ws
    else words cs

/-! ### Words -/

theorem words_ne_nil {cs : List (Option Char)} (hcs : startsWord cs = true) : words cs ≠ [] := by
  cases cs with
  | nil => cases hcs
  | cons c cs =>
    cases c with
    | none => cases hcs
    | some c =>
      have hc : isWordChar c = true := hcs
      rw [words, if_pos hc]
      split <;> simp

theorem words_cons_of_startsWord {c : Char} (hc : isWordChar c = true) {cs : List (Option Char)}
    (hcs : startsWord cs = true) {w : List Char} {ws : List (List Char)} (hws : words cs = w :: ws) :
    words (some c :: cs) = (c :: w) :: ws := by
  rw [words, if_pos hc, hcs, hws]

theorem words_cons_of_not_startsWord {c : Char} (hc : isWordChar c = true) {cs : List (Option Char)}
    (hcs : startsWord cs = false) : words (some c :: cs) = [c] :: words cs := by
  rw [words, if_pos hc, hcs]

theorem words_cons_of_not {c : Option Char} (hc : c.any isWordChar = false)
    (cs : List (Option Char)) : words (c :: cs) = words cs := by
  cases c with
  | none => rfl
  | some c =>
    have hc : isWordChar c = false := hc
    rw [words, hc, if_neg (by simp)]

theorem startsWord_append {xs : List (Option Char)} (hxs : xs ≠ []) (ys : List (Option Char)) :
    startsWord (xs ++ ys) = startsWord xs := by
  rw [startsWord, List.head?_append_of_ne_nil _ hxs, startsWord]

/-- What is seen in two parts has the words of both, unless a word ends the one where another starts
the other. -/
theorem words_append {xs ys : List (Option Char)}
    (h : endsWord xs = true → startsWord ys = false) : words (xs ++ ys) = words xs ++ words ys := by
  induction xs with
  | nil => rfl
  | cons c xs ih =>
    by_cases hxs : xs = []
    · subst hxs
      by_cases hc : c.any isWordChar = true
      · obtain ⟨d, rfl⟩ : ∃ d, c = some d := by
          cases c with
          | none => cases hc
          | some d => exact ⟨d, rfl⟩
        rw [List.singleton_append, words_cons_of_not_startsWord hc (h hc),
          words_cons_of_not_startsWord hc rfl]
        rfl
      · rw [Bool.not_eq_true] at hc
        rw [List.singleton_append, words_cons_of_not hc, words_cons_of_not hc]
        rfl
    · have hrest : words (xs ++ ys) = words xs ++ words ys := by
        refine ih fun hend => h ?_
        rwa [endsWord, List.getLast?_cons_of_ne_nil hxs]
      by_cases hc : c.any isWordChar = true
      · obtain ⟨d, rfl⟩ : ∃ d, c = some d := by
          cases c with
          | none => cases hc
          | some d => exact ⟨d, rfl⟩
        have hhead := startsWord_append hxs ys
        cases hstart : startsWord xs with
        | true =>
          obtain ⟨w, ws, hws⟩ := List.exists_cons_of_ne_nil (words_ne_nil hstart)
          rw [hws] at hrest
          rw [List.cons_append, words_cons_of_startsWord hc hstart hws,
            words_cons_of_startsWord hc (hhead.trans hstart) hrest]
          rfl
        | false =>
          rw [List.cons_append, words_cons_of_not_startsWord hc hstart,
            words_cons_of_not_startsWord hc (hhead.trans hstart), hrest]
          rfl
      · rw [Bool.not_eq_true] at hc
        rw [List.cons_append, words_cons_of_not hc, words_cons_of_not hc, hrest]

theorem words_eq_nil {cs : List (Option Char)} (hcs : ∀ c ∈ cs, c.any isWordChar = false) :
    words cs = [] := by
  induction cs with
  | nil => rfl
  | cons c cs ih =>
    obtain ⟨hc, hrest⟩ := List.forall_mem_cons.mp hcs
    rw [words_cons_of_not hc, ih hrest]

theorem words_map_some {cs : List Char} (hne : cs ≠ []) (hcs : ∀ c ∈ cs, isWordChar c = true) :
    words (cs.map some) = [cs] := by
  induction cs with
  | nil => exact absurd rfl hne
  | cons c cs ih =>
    obtain ⟨hc, hrest⟩ := List.forall_mem_cons.mp hcs
    cases cs with
    | nil => exact words_cons_of_not_startsWord hc rfl
    | cons d cs =>
      have hstart : startsWord ((d :: cs).map some) = true := hrest d List.mem_cons_self
      exact words_cons_of_startsWord hc hstart (ih (by simp) hrest)

/-! ### Reading on -/

theorem outsideFrom?_append {cs : List Char} (hcs : ∀ c ∈ cs, c ≠ '"' ∧ c ≠ '\'')
    (rest : List Char) :
    outsideFrom? .outside (cs ++ rest) = (outsideFrom? .outside rest).map (cs.map some ++ ·) := by
  induction cs with
  | nil => simp
  | cons c cs ih =>
    obtain ⟨⟨hdouble, hsingle⟩, hrest⟩ := List.forall_mem_cons.mp hcs
    rw [List.cons_append, outsideFrom?, Reader.next?, if_neg (by simp [hdouble, hsingle]),
      Option.bind_some, ih hrest, Option.map_map]
    rfl

theorem outsideFrom?_quoteChar (c : Char) (rest : List Char) :
    outsideFrom? (.inside '"') (quoteChar c ++ rest) =
      (outsideFrom? (.inside '"') rest).map (List.replicate (quoteChar c).length none ++ ·) := by
  have hescaped {d : Char} (hd : d ≠ '\n' ∧ d ≠ '\r') :
      outsideFrom? (.inside '"') (['\\', d] ++ rest) =
        (outsideFrom? (.inside '"') rest).map (List.replicate 2 none ++ ·) := by
    simp [outsideFrom?, Reader.next?, hd]
    rfl
  unfold quoteChar
  split
  · exact hescaped (by decide)
  · split
    · exact hescaped (by decide)
    · split
      · exact hescaped (by decide)
      · split
        · exact hescaped (by decide)
        · split
          · exact hescaped (by decide)
          · split
            · exact hescaped (by decide)
            · rename_i hquote hback hline hreturn _ _
              simp [outsideFrom?, Reader.next?, hquote, hback, hline, hreturn]

theorem outsideFrom?_quoteChars (cs rest : List Char) :
    outsideFrom? .outside (quoteChars cs ++ rest) =
      (outsideFrom? .outside rest).map (List.replicate (quoteChars cs).length none ++ ·) := by
  have hinside : outsideFrom? (.inside '"') (cs.flatMap quoteChar ++ ('"' :: rest)) =
      (outsideFrom? .outside rest).map
        (List.replicate ((cs.flatMap quoteChar).length + 1) none ++ ·) := by
    induction cs with
    | nil => simp [outsideFrom?, Reader.next?]
    | cons c cs ih =>
      rw [List.flatMap_cons, List.append_assoc, outsideFrom?_quoteChar, ih, Option.map_map]
      congr 1
      funext seen
      simp only [Function.comp_apply, List.length_append, List.replicate_add, List.append_assoc]
  have hopen : quoteChars cs ++ rest = '"' :: (cs.flatMap quoteChar ++ ('"' :: rest)) := by
    simp [quoteChars]
  rw [hopen, outsideFrom?, Reader.next?, if_pos (.inl rfl), Option.bind_some, hinside,
    Option.map_map, quoteChars, List.length_cons, List.length_append, List.length_singleton]
  rfl

/-! ### Tokens -/

namespace Token

def seen (t : Token) : List (Option Char) :=
  if t.isText then List.replicate t.chars.length none else t.chars.map some

/-- What the characters of a token of each kind are. -/
def IsShaped (t : Token) : Prop :=
  match t.kind with
  | .blank => ∃ c, isBlank c = true ∧ t.chars = [c]
  | .word =>
    (∀ c ∈ t.chars, isWordChar c = true ∨ c = '.' ∨ c = '+' ∨ c = '-') ∧
      t.chars.IsChain fun c d => d = '-' → c ≠ '-'
  | .sign => t.chars ∈ signs
  | .text _ => True

theorem isShaped_begin? {c : Char} {t : Token} (h : begin? c = some t) : t.IsShaped := by
  unfold begin? at h
  split at h
  · rename_i hblank
    obtain rfl := Option.some.inj h
    exact ⟨c, hblank, rfl⟩
  · split at h
    · rename_i hword
      obtain rfl := Option.some.inj h
      exact ⟨List.forall_mem_singleton.mpr (.inl hword), .singleton _⟩
    · split at h
      · obtain rfl := Option.some.inj h
        trivial
      · split at h
        · rename_i hsign
          obtain rfl := Option.some.inj h
          exact hsign
        · cases h

theorem getLast?_of_endsWithMark {cs : List Char} (h : endsWithMark cs = true) :
    ∀ c ∈ cs.getLast?, c ≠ '-' := by
  have hlast (xs : List Char) {ys : List Char} {m : Char} (hm : m ≠ '-')
      (hys : ys.getLast? = some m) : ∀ c ∈ (xs ++ ys).getLast?, c ≠ '-' := by
    intro c hc
    rw [List.getLast?_append, hys] at hc
    obtain rfl : m = c := Option.some.inj hc
    exact hm
  unfold endsWithMark at h
  split at h
  · rename_i rest
    rw [Bool.or_eq_true, decide_eq_true_eq, decide_eq_true_eq] at h
    rcases h with h | h
    · exact hlast ['0', 'x'] (by decide) h
    · exact hlast ['0', 'x'] (by decide) h
  · rename_i rest
    rw [Bool.or_eq_true, decide_eq_true_eq, decide_eq_true_eq] at h
    rcases h with h | h
    · exact hlast ['0', 'X'] (by decide) h
    · exact hlast ['0', 'X'] (by decide) h
  · rw [Bool.or_eq_true, decide_eq_true_eq, decide_eq_true_eq] at h
    rcases h with h | h
    · exact hlast [] (by decide) h
    · exact hlast [] (by decide) h

theorem IsShaped.extend? {t u : Token} {c : Char} (ht : t.IsShaped) (h : t.extend? c = some u) :
    u.IsShaped := by
  obtain ⟨kind, chars⟩ := t
  cases kind with
  | blank => cases h
  | word =>
    obtain ⟨hchars, hchain⟩ := ht
    simp only [Token.extend?] at h
    split at h
    · rename_i hgoes
      obtain rfl := Option.some.inj h
      refine ⟨fun d hd => ?_, hchain.append (.singleton c) fun x hx y hy => ?_⟩
      · rcases List.mem_append.mp hd with hd | hd
        · exact hchars d hd
        · rw [List.mem_singleton.mp hd]
          unfold goesOn at hgoes
          by_cases hword : isWordChar c = true
          · exact .inl hword
          · simp only [isWordChar] at hword
            simp only [hword, Bool.false_or, Bool.and_eq_true, Bool.or_eq_true,
              decide_eq_true_eq] at hgoes
            tauto
      · obtain rfl : c = y := by simpa using hy
        rintro rfl
        have hmark : isNumeral chars = true ∧ endsWithMark chars = true := by
          simpa [goesOn] using hgoes
        exact getLast?_of_endsWithMark hmark.2 x hx
    · cases h
  | sign =>
    simp only [Token.extend?] at h
    split at h
    · rename_i hpoint
      obtain rfl := Option.some.inj h
      refine ⟨?_, ?_⟩
      · have hdigit : isWordChar c = true := by simp [isWordChar, Char.isAlphanum, hpoint.2]
        simp [hdigit]
      · simp
    · split at h
      · rename_i hsign
        obtain rfl := Option.some.inj h
        exact hsign
      · cases h
  | text q =>
    cases q with
    | closed => cases h
    | escaped =>
      obtain rfl := Option.some.inj h
      trivial
    | inside =>
      simp only [Token.extend?] at h
      split at h
      · cases h
      · split at h
        · obtain rfl := Option.some.inj h
          trivial
        · split at h <;> · obtain rfl := Option.some.inj h; trivial

theorem IsShaped.foldlM {cs : List Char} {t u : Token} (ht : t.IsShaped)
    (h : cs.foldlM Token.extend? t = some u) : u.IsShaped := by
  induction cs generalizing t with
  | nil =>
    obtain rfl := Option.some.inj h
    exact ht
  | cons c cs ih =>
    obtain ⟨t', ht', hrest⟩ := Option.bind_eq_some_iff.mp h
    exact ih (ht.extend? ht') hrest

theorem Valid.isShaped {t : Token} (ht : t.Valid) : t.IsShaped := by
  obtain ⟨-, c, cs, u, -, hbegin, hextend⟩ := ht
  exact (isShaped_begin? hbegin).foldlM hextend

theorem Valid.notMem_openings {t : Token} (ht : t.Valid) (hkind : t.kind = .sign) :
    t.chars ∉ openings := by
  have hwhole := ht.1
  rw [isWhole, hkind] at hwhole
  simpa using hwhole

/-! ### What is seen of tokens -/

theorem seen_of_isText {t : Token} (ht : t.isText = true) :
    t.seen = List.replicate t.chars.length none := if_pos ht

theorem seen_of_not_isText {t : Token} (ht : t.isText = false) : t.seen = t.chars.map some := by
  rw [seen, ht, if_neg (by simp)]

theorem head?_of_seen {t : Token} {c : Char} (h : some c ∈ t.seen.head?) :
    t.chars.head? = some c := by
  unfold seen at h
  split at h
  · cases List.eq_of_mem_replicate (List.mem_of_mem_head? h)
  · simpa using h

theorem Valid.seen_ne_nil {t : Token} (ht : t.Valid) : t.seen ≠ [] := by
  have hne := ht.chars_ne_nil
  rw [seen]
  split
  · simpa using hne
  · simpa using hne

theorem Valid.not_isWordChar {t : Token} (ht : t.Valid) (hkind : t.kind ≠ .word) :
    ∀ c ∈ t.seen, c.any isWordChar = false := by
  have hshaped := ht.isShaped
  obtain ⟨kind, chars⟩ := t
  cases kind with
  | word => exact absurd rfl hkind
  | text q =>
    intro c hc
    rw [seen_of_isText rfl] at hc
    rw [List.eq_of_mem_replicate hc]
    rfl
  | blank =>
    obtain ⟨c, hc, rfl⟩ := hshaped
    have hsep : separates c = true := by rw [separates, hc, Bool.true_or]
    obtain ⟨hword, hline, -⟩ := isAlphanum_of_separates hsep
    have hnot : isWordChar c = false := by simp [isWordChar, hword, hline]
    exact List.forall_mem_singleton.mpr hnot
  | sign =>
    have hall : signs.all (·.all fun c => !isWordChar c) = true := by decide
    have hsigns : ∀ s ∈ signs, ∀ c ∈ s, isWordChar c = false := by simpa using hall
    rw [seen_of_not_isText rfl]
    exact List.forall_mem_map.mpr (hsigns chars hshaped)

theorem toNat_of_isWordChar {c : Char} (hc : isWordChar c = true) : c.toNat < 128 := by
  rw [isWordChar, Bool.or_eq_true, Char.isAlphanum, Bool.or_eq_true, isAlpha_iff, isDigit_iff,
    decide_eq_true_eq] at hc
  rcases hc with hc | rfl
  · omega
  · decide

/-- The characters of all tokens but string literals are ASCII characters, and no quotes. -/
theorem Valid.ascii {t : Token} (ht : t.Valid) (hkind : t.isText = false) :
    ∀ c ∈ t.chars, c.toNat < 128 ∧ c ≠ '"' ∧ c ≠ '\'' := by
  have hshaped := ht.isShaped
  obtain ⟨kind, chars⟩ := t
  cases kind with
  | text q => cases hkind
  | sign =>
    have hall : signs.all (·.all fun c => c.toNat < 128 ∧ c ≠ '"' ∧ c ≠ '\'') = true := by decide
    have hsigns : ∀ s ∈ signs, ∀ c ∈ s, c.toNat < 128 ∧ c ≠ '"' ∧ c ≠ '\'' := by simpa using hall
    exact hsigns chars hshaped
  | blank =>
    obtain ⟨c, hc, rfl⟩ := hshaped
    refine List.forall_mem_singleton.mpr ⟨?_, ?_, ?_⟩
    · rw [isBlank, Bool.or_eq_true, Bool.and_eq_true, decide_eq_true_eq, decide_eq_true_eq,
        decide_eq_true_eq] at hc
      rcases hc with rfl | hc
      · decide
      · omega
    · rintro rfl
      exact absurd hc (by decide)
    · rintro rfl
      exact absurd hc (by decide)
  | word =>
    intro c hc
    rcases hshaped.1 c hc with hword | rfl | rfl | rfl
    · refine ⟨toNat_of_isWordChar hword, ?_, ?_⟩
      · rintro rfl
        exact absurd hword (by decide)
      · rintro rfl
        exact absurd hword (by decide)
    all_goals decide

theorem Apart.not_startsWord {t u : Token} (hapart : t.Apart u) (ht : t.Valid)
    (hend : endsWord t.seen = true) : startsWord u.seen = false := by
  by_contra hstart
  rw [Bool.not_eq_false, startsWord] at hstart
  cases hhead : u.seen.head? with
  | none => simp [hhead] at hstart
  | some first =>
    cases first with
    | none => simp [hhead] at hstart
    | some c =>
      have hc : isWordChar c = true := by simpa [hhead] using hstart
      have hnone := hapart c (head?_of_seen hhead)
      have hkind : t.kind = .word := by
        by_contra hkind
        have hlast := List.getLast?_eq_some_getLast ht.seen_ne_nil
        have hnot := ht.not_isWordChar hkind _ (List.mem_of_getLast? hlast)
        rw [endsWord, hlast, Option.join_some, hnot] at hend
        cases hend
      obtain ⟨kind, chars⟩ := t
      obtain rfl : kind = .word := hkind
      have hgoes : goesOn chars c = true := by
        rw [isWordChar] at hc
        rw [goesOn, hc, Bool.true_or]
      have hsome := extend?_word chars c
      rw [if_pos hgoes] at hsome
      exact absurd (hnone.symm.trans hsome) (by simp)

end Token

/-! ### Comments and long brackets -/

/-- Whether two neighbours open neither a comment nor a long bracket. -/
def Harmless (x y : Option Char) : Prop :=
  [x, y] ∉ openings.map (·.map some)

instance (x y : Option Char) : Decidable (Harmless x y) :=
  inferInstanceAs (Decidable (¬_))

theorem exists_opening {x y : Option Char} (h : ¬Harmless x y) :
    ∃ a b, x = some a ∧ y = some b ∧ [a, b] ∈ openings := by
  obtain ⟨o, ho, heq⟩ := List.mem_map.mp (not_not.mp h)
  match o, heq with
  | [a, b], heq =>
    simp only [List.map_cons, List.map_nil, List.cons.injEq, and_true] at heq
    exact ⟨a, b, heq.1.symm, heq.2.symm, ho⟩

theorem openings_first {a b : Char} (h : [a, b] ∈ openings) : a = '-' ∨ a = '[' := by
  have hall : ∀ o ∈ openings, o.head? = some '-' ∨ o.head? = some '[' := by decide
  simpa using hall _ h

namespace Token

theorem Valid.isChain_seen {t : Token} (ht : t.Valid) : t.seen.IsChain Harmless := by
  have hshaped := ht.isShaped
  have hopening := ht.notMem_openings
  obtain ⟨kind, chars⟩ := t
  cases kind with
  | blank =>
    obtain ⟨c, -, rfl⟩ := hshaped
    exact .singleton _
  | text q =>
    rw [seen_of_isText rfl]
    exact List.isChain_replicate_of_rel _ (by decide)
  | sign =>
    have hsigns : ∀ s ∈ signs, s ∉ openings → (s.map some).IsChain Harmless := by decide
    exact hsigns chars hshaped (hopening rfl)
  | word =>
    obtain ⟨hchars, hchain⟩ := hshaped
    rw [seen_of_not_isText rfl, List.isChain_map]
    refine hchain.imp_of_mem_imp fun c d hc _ hcd => ?_
    by_contra hopens
    obtain ⟨a, b, hx, hy, hmem⟩ := exists_opening hopens
    obtain rfl := Option.some.inj hx
    obtain rfl := Option.some.inj hy
    rcases openings_first hmem with rfl | rfl
    · have hsecond : ∀ o ∈ openings, o.head? = some '-' → o.tail = ['-'] := by decide
      have hd : d = '-' := by simpa using hsecond _ hmem rfl
      exact hcd hd rfl
    · exact absurd (hchars '[' hc) (by decide)

/-- Tokens that are cut where they meet open nothing there, as long as the words among them end as
words do. -/
theorem Apart.harmless {t u : Token} (hapart : t.Apart u) (ht : t.Valid)
    (hword : t.kind = .word → endsWord t.seen = true) :
    ∀ x ∈ t.seen.getLast?, ∀ y ∈ u.seen.head?, Harmless x y := by
  intro x hx y hy
  by_contra hopens
  obtain ⟨a, b, rfl, rfl, hmem⟩ := exists_opening hopens
  have hfirst := openings_first hmem
  have hnone := hapart b (head?_of_seen hy)
  have hshaped := ht.isShaped
  have hopening := ht.notMem_openings
  obtain ⟨kind, chars⟩ := t
  cases kind with
  | blank =>
    obtain ⟨c, hc, rfl⟩ := hshaped
    obtain rfl : c = a := by simpa [seen, isText] using hx
    rcases hfirst with rfl | rfl <;> exact absurd hc (by decide)
  | text q =>
    rw [seen_of_isText rfl] at hx
    cases List.eq_of_mem_replicate (List.mem_of_getLast? hx)
  | word =>
    have hends := hword rfl
    rw [endsWord, hx] at hends
    have ha : isWordChar a = true := hends
    rcases hfirst with rfl | rfl <;> exact absurd ha (by decide)
  | sign =>
    have hlast : chars.getLast? = some a := by simpa [seen, isText] using hx
    have hsigns : ∀ s ∈ signs, s ∉ openings → ∀ o ∈ openings, s.getLast? = o.head? →
        s ++ o.tail ∈ signs ∧ s ≠ ['.'] := by decide
    obtain ⟨hgoes, hpoint⟩ := hsigns chars hshaped (hopening rfl) _ hmem hlast
    have hgoes : chars ++ [b] ∈ signs := hgoes
    have hsome := extend?_sign chars b
    rw [if_neg fun h => hpoint h.1, if_pos hgoes] at hsome
    exact absurd (hnone.symm.trans hsome) (by simp)

end Token

/-! ### Texts put together from tokens -/

section

variable {ts : List Token}

/-- Whether a token is what is printed: a string literal is a quoted text, and a word ends as one. -/
def Token.IsPlain (t : Token) : Prop :=
  (t.isText = true → ∃ value, t = Token.text value) ∧ (t.kind = .word → endsWord t.seen = true)

/-- **Outside of its string literals, a text that is put together from tokens has the characters of
the other tokens.** -/
theorem outside?_flatMap (hvalid : ∀ t ∈ ts, t.Valid) (hplain : ∀ t ∈ ts, t.IsPlain) :
    outside? (ts.flatMap (·.chars)) = some (ts.flatMap Token.seen) := by
  induction ts with
  | nil => rfl
  | cons t ts ih =>
    obtain ⟨ht, hrest⟩ := List.forall_mem_cons.mp hvalid
    obtain ⟨htext, hplain⟩ := List.forall_mem_cons.mp hplain
    have hread := ih hrest hplain
    unfold outside? at hread ⊢
    rw [List.flatMap_cons, List.flatMap_cons]
    cases hkind : t.isText with
    | true =>
      obtain ⟨value, rfl⟩ := htext.1 hkind
      rw [Token.text, outsideFrom?_quoteChars, hread, Option.map_some,
        Token.seen_of_isText rfl]
    | false =>
      rw [outsideFrom?_append fun c hc => (ht.ascii hkind c hc).2, hread, Option.map_some,
        Token.seen_of_not_isText hkind]

theorem isChain_flatMap_seen (h : Token.Spelled ts) (hplain : ∀ t ∈ ts, t.IsPlain) :
    (ts.flatMap Token.seen).IsChain Harmless := by
  rw [List.flatMap_def, List.isChain_flatten]
  · refine ⟨List.forall_mem_map.mpr fun t ht => (h.1 t ht).isChain_seen, ?_⟩
    rw [List.isChain_map]
    exact h.2.imp_of_mem_imp fun t u ht _ hapart => hapart.harmless (h.1 t ht) (hplain t ht).2
  · intro hmem
    obtain ⟨t, ht, hnil⟩ := List.mem_map.mp hmem
    exact (h.1 t ht).seen_ne_nil hnil

theorem words_flatMap_seen (h : Token.Spelled ts) :
    words (ts.flatMap Token.seen) = ts.flatMap fun t => words t.seen := by
  induction ts with
  | nil => rfl
  | cons t ts ih =>
    rw [List.flatMap_cons, List.flatMap_cons, words_append, ih h.of_cons]
    intro hend
    cases ts with
    | nil => rfl
    | cons u us =>
      rw [List.flatMap_cons, startsWord_append (h.1 u (by simp)).seen_ne_nil]
      exact h.2.rel.not_startsWord (h.1 t (by simp)) hend

end

end LuaSnippet.Lua
