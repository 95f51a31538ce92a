import Mathlib.Data.List.Chain
import LuaSnippet.Lua.Tree
import LuaSnippet.Lua.Name
import LuaSnippet.Lua.Quoted

/-!
# Tokens of Lua

A Lua text is cut into tokens from left to right: a character belongs to the token before it for as
long as that goes on. White space is kept as tokens of its own, so that the characters of all tokens
together are the text again. Comments and long brackets are no tokens here, and a text with any of
them is not cut.

`tokens?_flatMap`: tokens that are written one after the other are cut where they were put together,
as long as none of them goes on with what starts the next one.
-/

namespace LuaSnippet.Lua

def isBlank (c : Char) : Bool :=
  c = ' ' || (9 ≤ c.toNat && c.toNat ≤ 13)

/-- How far a string literal is read: within its quotes, behind a backslash there, or to its end. -/
inductive Quoting where
  | inside
  | escaped
  | closed
deriving DecidableEq, Repr

/-- The kinds of tokens. Names, keywords and numerals are all words. -/
inductive Token.Kind where
  | blank
  | word
  | sign
  | text (q : Quoting)
deriving DecidableEq, Repr

/-- A part of a Lua text that belongs together. -/
structure Token where
  kind : Token.Kind
  chars : List Char
deriving DecidableEq, Repr

/-- The signs of Lua, and the openings of comments and long brackets. With a sign every beginning of
it is one. -/
def signs : List (List Char) :=
  ["+", "-", "*", "/", "%", "^", "#", "&", "~", "|", "<", ">", "=", "(", ")", "\x7b", "\x7d", "[",
    "]", ";", ":", ",", ".", "<<", ">>", "//", "==", "~=", "<=", ">=", "::", "..", "...", "--",
    "[[", "[="].map (·.toList)

/-- The signs that open what is no token. -/
def openings : List (List Char) := ["--", "[[", "[="].map (·.toList)

def isNumeral (word : List Char) : Bool :=
  match word with
  | c :: _ => c.isDigit || c = '.'
  | [] => false

/-- Whether a numeral ends with the mark of an exponent, which depends on its base. -/
def endsWithMark (word : List Char) : Bool :=
  match word with
  | '0' :: 'x' :: rest | '0' :: 'X' :: rest => rest.getLast? = some 'p' || rest.getLast? = some 'P'
  | _ => word.getLast? = some 'e' || word.getLast? = some 'E'

def goesOn (word : List Char) (c : Char) : Bool :=
  c.isAlphanum || c = '_' ||
    (isNumeral word && (c = '.' || ((c = '+' || c = '-') && endsWithMark word)))

namespace Token

/-- A token with one more character, if it goes on with it. -/
def extend? (t : Token) (c : Char) : Option Token :=
  match t.kind with
  | .blank => none
  | .word => if goesOn t.chars c then some ⟨.word, t.chars ++ [c]⟩ else none
  | .sign =>
    if t.chars = ['.'] ∧ c.isDigit = true then some ⟨.word, ['.', c]⟩
    else if t.chars ++ [c] ∈ signs then some ⟨.sign, t.chars ++ [c]⟩ else none
  | .text .closed => none
  | .text .escaped => some ⟨.text .inside, t.chars ++ [c]⟩
  | .text .inside =>
    if c = '\n' ∨ c = '\r' then none
    else if t.chars.head? = some c then some ⟨.text .closed, t.chars ++ [c]⟩
    else if c = '\\' then some ⟨.text .escaped, t.chars ++ [c]⟩
    else some ⟨.text .inside, t.chars ++ [c]⟩

def begin? (c : Char) : Option Token :=
  if isBlank c then some ⟨.blank, [c]⟩
  else if c.isAlphanum || c = '_' then some ⟨.word, [c]⟩
  else if c = '"' || c = '\'' then some ⟨.text .inside, [c]⟩
  else if [c] ∈ signs then some ⟨.sign, [c]⟩
  else none

/-- Whether a token is complete: no string literal that is still open, and no sign that opens what is
no token. -/
def isWhole (t : Token) : Bool :=
  match t.kind with
  | .text q => q = .closed
  | .sign => !openings.contains t.chars
  | _ => true

/-- The tokens so far, the latest first, with one more character. -/
def step (ts : List Token) (c : Char) : Option (List Token) :=
  match ts with
  | [] => (begin? c).map fun t => [t]
  | t :: ts =>
    match t.extend? c with
    | some t' => some (t' :: ts)
    | none => (begin? c).map fun u => u :: t :: ts

end Token

/-- The tokens of a text. -/
def tokens? (cs : List Char) : Option (List Token) :=
  (cs.foldlM Token.step []).bind fun ts =>
    if ts.all Token.isWhole then some ts.reverse else none

/-! ### Cutting what was put together -/

namespace Token

/-- A token that its characters are cut into, if nothing stands before them that goes on. -/
def Valid (t : Token) : Prop :=
  t.isWhole = true ∧ ∃ c cs u, t.chars = c :: cs ∧ begin? c = some u ∧ cs.foldlM extend? u = some t

/-- Whether a token does not go on with what starts another one. -/
def Apart (t u : Token) : Prop :=
  ∀ c, u.chars.head? = some c → t.extend? c = none

theorem foldlM_step_of_extend? {cs : List Char} {t u : Token} (ts : List Token)
    (h : cs.foldlM extend? t = some u) : cs.foldlM step (t :: ts) = some (u :: ts) := by
  induction cs generalizing t with
  | nil =>
    rw [List.foldlM_nil] at h ⊢
    rw [Option.some.inj h]
    rfl
  | cons c cs ih =>
    rw [List.foldlM_cons, Option.bind_eq_bind, Option.bind_eq_some_iff] at h
    obtain ⟨t', ht', hrest⟩ := h
    rw [List.foldlM_cons]
    simp only [step, ht', Option.bind_eq_bind, Option.bind_some]
    exact ih hrest

theorem foldlM_step_of_valid {t : Token} (ht : t.Valid) {ts : List Token}
    (hapart : ∀ u ∈ ts.head?, u.Apart t) : t.chars.foldlM step ts = some (t :: ts) := by
  obtain ⟨-, c, cs, u, hchars, hbegin, hextend⟩ := ht
  rw [hchars, List.foldlM_cons]
  have hstep : step ts c = some (u :: ts) := by
    cases ts with
    | nil => simp only [step, hbegin, Option.map_some]
    | cons v ts =>
      have hnone : v.extend? c = none := hapart v rfl c (by rw [hchars]; rfl)
      simp only [step, hnone, hbegin, Option.map_some]
  rw [hstep, Option.bind_eq_bind, Option.bind_some]
  exact foldlM_step_of_extend? ts hextend

theorem foldlM_step_flatMap {ts : List Token} (hvalid : ∀ t ∈ ts, t.Valid)
    (hchain : ts.IsChain Apart) (before : List Token)
    (hfirst : ∀ u ∈ before.head?, ∀ t ∈ ts.head?, u.Apart t) :
    (ts.flatMap (·.chars)).foldlM step before = some (ts.reverse ++ before) := by
  -- Each token is read behind those before it, so these are not fixed.
  induction ts generalizing before with
  | nil => rfl
  | cons t ts ih =>
    obtain ⟨ht, hrest⟩ := List.forall_mem_cons.mp hvalid
    rw [List.flatMap_cons, List.foldlM_append,
      foldlM_step_of_valid ht fun u hu => hfirst u hu t rfl, Option.bind_eq_bind,
      Option.bind_some]
    rw [ih hrest hchain.tail (t :: before) ?_]
    · simp
    · intro u hu v hv
      obtain rfl : u = t := by simpa using hu.symm
      cases ts with
      | nil => simp at hv
      | cons w ts =>
        obtain rfl : v = w := by simpa using hv.symm
        exact hchain.rel

end Token

/-- **Tokens are cut where they were put together**, if none goes on with what starts the next. -/
theorem tokens?_flatMap {ts : List Token} (hvalid : ∀ t ∈ ts, t.Valid)
    (hchain : ts.IsChain Token.Apart) : tokens? (ts.flatMap (·.chars)) = some ts := by
  have hall : ts.reverse.all Token.isWhole = true := by
    rw [List.all_reverse, List.all_eq_true]
    exact fun t ht => (hvalid t ht).1
  unfold tokens?
  rw [Token.foldlM_step_flatMap hvalid hchain [] (by simp), Option.bind_some, List.append_nil,
    if_pos hall, List.reverse_reverse]

/-! ### Separators -/

namespace Token

/-- The signs that stand apart from whatever is around them. -/
def marks : List Char := ['(', ')', '\x7b', '\x7d', ',', ';']

/-- Whether no token goes on with a character, and none that it starts goes on. -/
def separates (c : Char) : Bool :=
  isBlank c || marks.contains c

def blank (c : Char) : Token := ⟨.blank, [c]⟩

/-- A name, a keyword or a numeral. -/
def word (cs : List Char) : Token := ⟨.word, cs⟩

def sign (cs : List Char) : Token := ⟨.sign, cs⟩

def text (value : String) : Token := ⟨.text .closed, quoteChars value.toList⟩

/-- A token that stands apart from whatever is around it. -/
def IsSeparator (t : Token) : Prop :=
  (∃ c, isBlank c = true ∧ t = blank c) ∨ ∃ c ∈ marks, t = sign [c]

theorem extend?_word (cs : List Char) (c : Char) :
    (word cs).extend? c = if goesOn cs c then some (word (cs ++ [c])) else none := rfl

theorem extend?_sign (cs : List Char) (c : Char) :
    (sign cs).extend? c =
      if cs = ['.'] ∧ c.isDigit = true then some (word ['.', c])
      else if cs ++ [c] ∈ signs then some (sign (cs ++ [c])) else none := rfl

theorem isAlphanum_of_separates {c : Char} (hc : separates c = true) :
    c.isAlphanum = false ∧ c ≠ '_' ∧ c ≠ '.' ∧ c ≠ '+' ∧ c ≠ '-' := by
  have hcases : c = ' ' ∨ (9 ≤ c.toNat ∧ c.toNat ≤ 13) ∨ c ∈ marks := by
    simpa [separates, isBlank, or_assoc] using hc
  have hmarks : marks.all (fun m =>
      !m.isAlphanum && m ≠ '_' && m ≠ '.' && m ≠ '+' && m ≠ '-') = true := by decide
  rcases hcases with rfl | ⟨hlow, hhigh⟩ | hmem
  · decide
  · have hof : c = Char.ofNat c.toNat := (Char.ofNat_toNat c).symm
    obtain h | h | h | h | h : c.toNat = 9 ∨ c.toNat = 10 ∨ c.toNat = 11 ∨ c.toNat = 12 ∨
        c.toNat = 13 := by omega
    all_goals rw [h] at hof; subst hof; decide
  · simpa [and_assoc] using List.all_eq_true.mp hmarks c hmem

theorem append_notMem_signs_of_separates {cs : List Char} (hcs : cs ≠ []) {c : Char}
    (hc : separates c = true) : cs ++ [c] ∉ signs := by
  have hsigns : ∀ s ∈ signs, s.length < 2 ∨ s.getLast?.all (!separates ·) = true := by decide
  intro hmem
  have hlength : 1 ≤ cs.length := List.length_pos_of_ne_nil hcs
  rcases hsigns _ hmem with hshort | hlast
  · rw [List.length_append, List.length_singleton] at hshort
    omega
  · simp [hc] at hlast

theorem Valid.chars_ne_nil {t : Token} (ht : t.Valid) : t.chars ≠ [] := by
  obtain ⟨-, c, cs, u, hchars, -⟩ := ht
  rw [hchars]
  simp

theorem Valid.extend?_of_separates {t : Token} (ht : t.Valid) {c : Char}
    (hc : separates c = true) : t.extend? c = none := by
  have hwhole := ht.1
  obtain ⟨hword, hline, hpoint, hplus, hminus⟩ := isAlphanum_of_separates hc
  obtain ⟨kind, chars⟩ := t
  cases kind with
  | blank => rfl
  | word => simp [extend?, goesOn, hword, hline, hpoint, hplus, hminus]
  | sign =>
    have hdigit : c.isDigit = false := by
      simp only [Char.isAlphanum, Bool.or_eq_false_iff] at hword
      exact hword.2
    simp [extend?, hdigit, append_notMem_signs_of_separates ht.chars_ne_nil hc]
  | text q =>
    have hq : q = .closed := by simpa [isWhole] using hwhole
    rw [hq]
    rfl

theorem IsSeparator.valid {t : Token} (ht : t.IsSeparator) : t.Valid := by
  rcases ht with ⟨c, hc, rfl⟩ | ⟨c, hc, rfl⟩
  · exact ⟨rfl, c, [], blank c, rfl, by rw [begin?, if_pos hc]; rfl, rfl⟩
  · have hmarks : marks.all (fun m =>
        (sign [m]).isWhole && begin? m = some (sign [m])) = true := by decide
    have hmark := List.all_eq_true.mp hmarks c hc
    rw [Bool.and_eq_true, decide_eq_true_eq] at hmark
    exact ⟨hmark.1, c, [], sign [c], rfl, hmark.2, rfl⟩

theorem IsSeparator.separates_head {t : Token} (ht : t.IsSeparator) {c : Char}
    (hc : t.chars.head? = some c) : separates c = true := by
  rcases ht with ⟨d, hd, rfl⟩ | ⟨d, hd, rfl⟩
  · obtain rfl : d = c := by simpa [blank] using hc
    simp [separates, hd]
  · obtain rfl : d = c := by simpa [sign] using hc
    simp [separates, hd]

theorem IsSeparator.extend? {t : Token} (ht : t.IsSeparator) (c : Char) : t.extend? c = none := by
  rcases ht with ⟨d, -, rfl⟩ | ⟨d, hd, rfl⟩
  · rfl
  · have hsigns : ∀ s ∈ signs, s.length < 2 ∨ s.head?.all (!marks.contains ·) = true := by decide
    have hnone : [d] ++ [c] ∉ signs := by
      intro hmem
      rcases hsigns _ hmem with hshort | hhead
      · simp at hshort
      · simp [hd] at hhead
    have hpoint : [d] ≠ ['.'] := by
      rintro heq
      obtain rfl : d = '.' := by simpa using heq
      exact absurd hd (by decide)
    rw [extend?_sign, if_neg (fun h => hpoint h.1), if_neg hnone]

/-! ### Spelled tokens -/

/-- Tokens that are cut where they are put together. -/
def Spelled (ts : List Token) : Prop :=
  (∀ t ∈ ts, t.Valid) ∧ ts.IsChain Apart

theorem spelled_nil : Spelled [] := ⟨by simp, .nil⟩

theorem spelled_singleton {t : Token} : Spelled [t] ↔ t.Valid := by
  simp [Spelled]

theorem spelled_append_separator {s : Token} (hs : s.IsSeparator) {xs ys : List Token} :
    Spelled (xs ++ s :: ys) ↔ Spelled xs ∧ Spelled ys := by
  unfold Spelled
  rw [List.isChain_append]
  have hright : ∀ y, s.Apart y := fun y c _ => hs.extend? c
  have hchain : (s :: ys).IsChain Apart ↔ ys.IsChain Apart := by
    cases ys with
    | nil => simp
    | cons y ys => simp [hright y]
  constructor
  · rintro ⟨hvalid, hxs, hys, -⟩
    refine ⟨⟨fun t ht => hvalid t (by simp [ht]), hxs⟩, fun t ht => hvalid t (by simp [ht]), ?_⟩
    exact hchain.mp hys
  · rintro ⟨⟨hvx, hxs⟩, hvy, hys⟩
    refine ⟨?_, hxs, hchain.mpr hys, ?_⟩
    · intro t ht
      rcases List.mem_append.mp ht with ht | ht
      · exact hvx t ht
      · rcases List.mem_cons.mp ht with rfl | ht
        · exact hs.valid
        · exact hvy t ht
    · intro x hx y hy c hc
      obtain rfl : s = y := by simpa using hy
      exact (hvx x (List.mem_of_getLast? hx)).extend?_of_separates (hs.separates_head hc)

theorem spelled_append_apart {xs ys : List Token} (hxs : Spelled xs) (hys : Spelled ys)
    (hapart : ∀ x ∈ xs.getLast?, ∀ y ∈ ys.head?, x.Apart y) : Spelled (xs ++ ys) := by
  refine ⟨?_, List.isChain_append.mpr ⟨hxs.2, hys.2, hapart⟩⟩
  intro t ht
  rcases List.mem_append.mp ht with ht | ht
  · exact hxs.1 t ht
  · exact hys.1 t ht

/-! ### Words and strings -/

theorem foldlM_extend?_word {cs ds : List Char}
    (hds : ∀ before d after, ds = before ++ d :: after → goesOn (cs ++ before) d = true) :
    ds.foldlM extend? (word cs) = some (word (cs ++ ds)) := by
  induction ds generalizing cs with
  | nil =>
    rw [List.append_nil]
    rfl
  | cons d ds ih =>
    have hd : goesOn cs d = true := by simpa using hds [] d ds rfl
    rw [List.foldlM_cons, extend?_word, if_pos hd, Option.bind_eq_bind, Option.bind_some, ih]
    · simp
    · intro before e after heq
      have h := hds (d :: before) e after (by rw [heq]; rfl)
      simpa using h

theorem Valid.word_append {cs ds : List Char} (hcs : (word cs).Valid)
    (hds : ∀ before d after, ds = before ++ d :: after → goesOn (cs ++ before) d = true) :
    (word (cs ++ ds)).Valid := by
  obtain ⟨-, c, rest, u, hchars, hbegin, hextend⟩ := hcs
  have hchars' : cs = c :: rest := hchars
  refine ⟨rfl, c, rest ++ ds, u, ?_, hbegin, ?_⟩
  · rw [word, hchars']
    rfl
  · rw [List.foldlM_append, hextend, Option.bind_eq_bind, Option.bind_some]
    exact foldlM_extend?_word hds

theorem begin?_of_isAlphanum {c : Char} (hc : c.isAlphanum = true ∨ c = '_') :
    begin? c = some (word [c]) := by
  have hblank : isBlank c = false := by
    by_contra hblank
    have hsep : separates c = true := by
      rw [separates, Bool.not_eq_false .. |>.mp hblank, Bool.true_or]
    obtain ⟨hword, hline, -⟩ := isAlphanum_of_separates hsep
    rcases hc with hc | hc
    · simp [hword] at hc
    · exact hline hc
  unfold begin?
  rw [if_neg (by simp [hblank]), if_pos (by simpa using hc)]
  rfl

theorem valid_word {c : Char} {cs : List Char} (hc : c.isAlphanum = true ∨ c = '_')
    (hcs : ∀ d ∈ cs, d.isAlphanum = true ∨ d = '_') : (word (c :: cs)).Valid := by
  have hone : (word [c]).Valid := ⟨rfl, c, [], word [c], rfl, begin?_of_isAlphanum hc, rfl⟩
  refine hone.word_append fun before d after heq => ?_
  rcases hcs d (by rw [heq]; simp) with hd | hd <;> simp [goesOn, hd]

/-- A string literal so far: within its quotes. -/
def within (cs : List Char) : Token := ⟨.text .inside, '"' :: cs⟩

theorem foldlM_extend?_quoteChar (cs : List Char) (c : Char) :
    (quoteChar c).foldlM extend? (within cs) = some (within (cs ++ quoteChar c)) := by
  unfold quoteChar
  split
  · simp [extend?, within]
  · split
    · simp [extend?, within]
    · split
      · simp [extend?, within]
      · split
        · simp [extend?, within]
        · split
          · simp [extend?, within]
          · split
            · simp [extend?, within]
            · rename_i hquote hback hline hreturn _ _
              simp [extend?, within, hback, hline, hreturn, Ne.symm hquote]

theorem foldlM_extend?_flatMap_quoteChar (cs value : List Char) :
    (value.flatMap quoteChar).foldlM extend? (within cs) =
      some (within (cs ++ value.flatMap quoteChar)) := by
  induction value generalizing cs with
  | nil =>
    rw [List.flatMap_nil, List.append_nil]
    rfl
  | cons c value ih =>
    rw [List.flatMap_cons, List.foldlM_append, foldlM_extend?_quoteChar, Option.bind_eq_bind,
      Option.bind_some, ih, List.append_assoc]

theorem valid_text (value : String) : (text value).Valid := by
  refine ⟨rfl, '"', value.toList.flatMap quoteChar ++ ['"'], within [], rfl, by decide, ?_⟩
  rw [List.foldlM_append, foldlM_extend?_flatMap_quoteChar, Option.bind_eq_bind, Option.bind_some]
  rfl

end Token

end LuaSnippet.Lua
