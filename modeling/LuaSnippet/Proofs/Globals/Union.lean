import LuaSnippet.Globals.Overload
import LuaSnippet.Proofs.Script.Faithful
import Mathlib.Data.Fintype.EquivFin
import Mathlib.Data.List.MinMax
import Mathlib.Data.List.TakeWhile

/-!
# Unions of string literals

The type of a parameter is kept as it is written, and a union is cut at every bar, those within string
literals too. A part in quotes is compared with an argument as it is written, with its escapes; any
other part that is no known word lets every literal pass. So a union of string literals takes exactly
the values that are written in it, or all of them if a bar stands in one of its literals or the union
in a group (`argumentMismatch_union`). It takes the values that its literals mean exactly if it stands
in no group and none of them has a bar or an escape (`literal_unions`).
-/

namespace LuaSnippet.Globals

open Script (AreQuotable Signature Param Arg Expr)
open LuaSnippet.Text (isBlank trim trimEnd trimChars)

/-! ### Trimming -/

theorem trimChars_concat {xs ys : List Char} {c : Char} (hc : isBlank c = false)
    (hys : ∀ d ∈ ys, isBlank d = true) :
    trimChars (xs ++ c :: ys) = xs.dropWhile isBlank ++ [c] := by
  have hend (zs : List Char) : trimEnd (zs ++ c :: ys) = zs ++ [c] := by
    have hreverse : (zs ++ c :: ys).reverse = ys.reverse ++ c :: zs.reverse := by simp
    rw [trimEnd, hreverse, List.dropWhile_append_of_pos (by simpa using hys),
      List.dropWhile_cons_of_neg (by simp [hc]), List.reverse_cons, List.reverse_reverse]
  rw [trimChars]
  by_cases hxs : ∀ d ∈ xs, isBlank d = true
  · have hdrop : xs.dropWhile isBlank = [] := List.dropWhile_eq_nil_iff.mpr hxs
    rw [List.dropWhile_append_of_pos hxs, List.dropWhile_cons_of_neg (by simp [hc]), hdrop]
    exact hend []
  · have hdrop : ¬ (xs.dropWhile isBlank).isEmpty = true := by
      rwa [List.isEmpty_iff, List.dropWhile_eq_nil_iff]
    rw [List.dropWhile_append, if_neg hdrop]
    exact hend _

theorem trimChars_cons {c : Char} (hc : isBlank c = true) (cs : List Char) :
    trimChars (c :: cs) = trimChars cs := by
  rw [trimChars, trimChars, List.dropWhile_cons_of_pos hc]

theorem trimChars_append {ys : List Char} (hys : ∀ d ∈ ys, isBlank d = true) (cs : List Char) :
    trimChars (cs ++ ys) = trimChars cs := by
  have hend (zs : List Char) : trimEnd (zs ++ ys) = trimEnd zs := by
    rw [trimEnd, trimEnd, List.reverse_append, List.dropWhile_append_of_pos (by simpa using hys)]
  rw [trimChars, trimChars, List.dropWhile_append]
  split
  next hempty =>
    rw [List.isEmpty_iff.mp hempty]
    rw [List.dropWhile_eq_nil_iff.mpr hys]
  · exact hend _

theorem exists_trimChars_cons {c : Char} (hc : isBlank c = false) (cs : List Char) :
    ∃ ds, trimChars (c :: cs) = c :: ds := by
  rw [trimChars, List.dropWhile_cons_of_neg (by simp [hc]), trimEnd, List.reverse_cons,
    List.dropWhile_append]
  split
  · exact ⟨[], by simp [hc]⟩
  · exact ⟨(cs.reverse.dropWhile isBlank).reverse, by simp⟩

theorem trim_ofList (cs : List Char) : trim (String.ofList cs) = String.ofList (trimChars cs) := by
  rw [trim, String.toList_ofList]

/-! ### Parts of a union -/

theorem unionParts_eq (cs : List Char) : unionParts cs = cs.splitOn '|' := by
  induction cs with
  | nil => rfl
  | cons c cs ih =>
    rw [List.splitOn, List.splitOnP_cons_eq_if_modifyHead, ← List.splitOn, ← ih, unionParts]
    by_cases hc : c = '|'
    · simp [hc]
    · rw [if_neg hc, if_neg (by simpa using hc)]
      cases hcs : unionParts cs with
      | nil => exact absurd (ih ▸ hcs) (List.splitOnP_ne_nil _ _)
      | cons => rfl

theorem unionParts_append (xs ys : List Char) :
    unionParts (xs ++ '|' :: ys) = unionParts xs ++ unionParts ys := by
  simp only [unionParts_eq, List.splitOn]
  exact List.splitOnP_append_cons xs ys (by simp)

theorem unionParts_of_notMem {cs : List Char} (h : '|' ∉ cs) : unionParts cs = [cs] := by
  rw [unionParts_eq, List.splitOn]
  apply List.splitOnP_eq_singleton
  intro c hc
  rw [beq_eq_false_iff_ne]
  rintro rfl
  exact h hc

theorem unionParts_cons {c : Char} (hc : c ≠ '|') (cs : List Char) :
    ∃ p ps, unionParts cs = p :: ps ∧ unionParts (c :: cs) = (c :: p) :: ps := by
  rw [unionParts, if_neg hc]
  cases hcs : unionParts cs with
  | nil => exact absurd (unionParts_eq cs ▸ hcs) (List.splitOnP_ne_nil _ _)
  | cons p ps => exact ⟨p, ps, rfl, rfl⟩

theorem unionParts_intercalate {texts : List (List Char)} (h : texts ≠ []) :
    unionParts (['|'].intercalate texts) = texts.flatMap unionParts := by
  induction texts with
  | nil => exact absurd rfl h
  | cons t texts ih =>
    cases texts with
    | nil => simp
    | cons u texts =>
      rw [List.intercalate_cons_cons, List.append_assoc, List.singleton_append, unionParts_append,
        ih (by simp)]
      rfl

theorem unionMembers_ofList (cs : List Char) :
    unionMembers (String.ofList cs) = ((unionParts cs).map trimChars).map String.ofList := by
  rw [unionMembers, String.toList_ofList, List.map_map]
  exact List.map_congr_left fun p _ => trim_ofList p

theorem map_trimChars_dropWhile (cs : List Char) :
    (unionParts (cs.dropWhile isBlank)).map trimChars = (unionParts cs).map trimChars := by
  induction cs with
  | nil => rfl
  | cons c cs ih =>
    rw [List.dropWhile_cons]
    split
    next hc =>
      have hbar : c ≠ '|' := by
        rintro rfl
        cases hc
      obtain ⟨p, ps, hps, hcons⟩ := unionParts_cons hbar cs
      rw [ih, hps, hcons, List.map_cons, List.map_cons, trimChars_cons hc]
    · rfl

theorem map_trimChars_append {ys : List Char} (hys : ∀ d ∈ ys, isBlank d = true) (cs : List Char) :
    (unionParts (cs ++ ys)).map trimChars = (unionParts cs).map trimChars := by
  have hbar : '|' ∉ ys := fun hmem => absurd (hys '|' hmem) (by decide)
  -- the blanks end up at the end of the last part
  suffices h : List.Forall₂ (fun p q => p = q ∨ p = q ++ ys) (unionParts (cs ++ ys))
      (unionParts cs) by
    rw [← List.forall₂_eq_eq_eq, List.forall₂_map_left_iff, List.forall₂_map_right_iff]
    refine h.imp fun p q hpq => ?_
    rcases hpq with rfl | rfl
    · rfl
    · exact trimChars_append hys q
  induction cs with
  | nil =>
    rw [List.nil_append, unionParts_of_notMem hbar]
    exact .cons (.inr rfl) .nil
  | cons c cs ih =>
    rw [List.cons_append]
    by_cases hc : c = '|'
    · rw [unionParts, unionParts, if_pos hc, if_pos hc]
      exact .cons (.inl rfl) ih
    · obtain ⟨p, ps, hps, hcons⟩ := unionParts_cons hc (cs ++ ys)
      obtain ⟨q, qs, hqs, hcons'⟩ := unionParts_cons hc cs
      rw [hps, hqs] at ih
      rw [hcons, hcons']
      obtain ⟨hpq, hrest⟩ := List.forall₂_cons.mp ih
      refine .cons ?_ hrest
      rcases hpq with rfl | rfl
      · exact .inl rfl
      · exact .inr rfl

/-- **Blanks around a type do not change its members.** -/
theorem unionMembers_trim (cs : List Char) :
    unionMembers (trim (String.ofList cs)) = unionMembers (String.ofList cs) := by
  rw [trim_ofList, unionMembers_ofList, unionMembers_ofList, trimChars,
    ← map_trimChars_dropWhile cs]
  generalize cs.dropWhile isBlank = ds
  have hsplit : trimEnd ds ++ (ds.reverse.takeWhile isBlank).reverse = ds := by
    rw [trimEnd, ← List.reverse_append, List.takeWhile_append_dropWhile, List.reverse_reverse]
  have hblank : ∀ d ∈ (ds.reverse.takeWhile isBlank).reverse, isBlank d = true := fun d hd =>
    List.mem_takeWhile_imp (List.mem_reverse.mp hd)
  have happend := map_trimChars_append hblank (trimEnd ds)
  rw [hsplit] at happend
  rw [happend]

/-! ### What is neither a word nor a number -/

/-- Whether a character stands in no name of a type and in no number. -/
def isForeign (c : Char) : Bool :=
  c = '"' || c = '\'' || c = '(' || c = '/'

theorem mem_of_dropSign {cs : List Char} {c : Char} (hc : isForeign c = true) (hmem : c ∈ cs) :
    c ∈ Text.Numeral.dropSign cs := by
  cases cs with
  | nil => exact hmem
  | cons d ds =>
    rw [Text.Numeral.dropSign]
    split
    next hsign =>
      refine (List.mem_cons.mp hmem).resolve_left ?_
      rintro rfl
      simp only [Bool.or_eq_true, decide_eq_true_eq] at hsign
      rcases hsign with rfl | rfl <;> cases hc
    · exact hmem

theorem isDigit_of_isForeign {c : Char} (hc : isForeign c = true) : c.isDigit = false := by
  simp only [isForeign, Bool.or_eq_true, decide_eq_true_eq] at hc
  rcases hc with ((rfl | rfl) | rfl) | rfl <;> rfl

theorem notMem_of_isExponent {cs : List Char} {c : Char} (hc : isForeign c = true)
    (h : Text.Numeral.isExponent cs = true) : c ∉ cs := by
  cases cs with
  | nil => exact List.not_mem_nil
  | cons d ds =>
    simp only [Text.Numeral.isExponent, Text.Numeral.isDigits, Bool.and_eq_true, Bool.or_eq_true,
      decide_eq_true_eq, List.all_eq_true] at h
    obtain ⟨hmark, -, hdigits⟩ := h
    rw [List.mem_cons, not_or]
    refine ⟨?_, fun hmem => ?_⟩
    · rintro rfl
      rcases hmark with rfl | rfl <;> cases hc
    · have hdigit := hdigits c (mem_of_dropSign hc hmem)
      rw [isDigit_of_isForeign hc] at hdigit
      cases hdigit

theorem mem_dropWhile_isDigit {cs : List Char} {c : Char} (hc : isForeign c = true)
    (hmem : c ∈ cs) : c ∈ cs.dropWhile Char.isDigit := by
  rw [← List.takeWhile_append_dropWhile (p := Char.isDigit) (l := cs), List.mem_append] at hmem
  refine hmem.resolve_left fun hdigit => ?_
  have hdigit := List.mem_takeWhile_imp hdigit
  rw [isDigit_of_isForeign hc] at hdigit
  cases hdigit

theorem notMem_of_isFinite {cs : List Char} {c : Char} (hc : isForeign c = true)
    (h : Text.Numeral.isFinite cs = true) : c ∉ cs := by
  intro hmem
  have hrest := mem_dropWhile_isDigit hc hmem
  unfold Text.Numeral.isFinite at h
  split at h
  next hnil =>
    rw [hnil] at hrest
    cases hrest
  next d ds hds =>
    rw [hds] at hrest
    split at h
    next hpoint =>
      simp only [Bool.and_eq_true] at h
      refine notMem_of_isExponent hc h.2 (mem_dropWhile_isDigit hc ?_)
      refine (List.mem_cons.mp hrest).resolve_left ?_
      rintro rfl
      obtain rfl : c = '.' := by simpa using hpoint
      cases hc
    · simp only [Bool.and_eq_true] at h
      exact notMem_of_isExponent hc h.2 hrest

theorem notMem_of_isNumeral {type : String} {c : Char} (hc : isForeign c = true)
    (h : Text.Numeral.isNumeral type = true) : c ∉ type.toList := by
  intro hmem
  have hmem := mem_of_dropSign hc hmem
  simp only [Text.Numeral.isNumeral, Bool.or_eq_true] at h
  rcases h with h | h
  · exact notMem_of_isFinite hc h hmem
  · have hlower : c ∈ (Text.Numeral.dropSign type.toList).map Char.toLower := by
      refine List.mem_map.mpr ⟨c, hmem, ?_⟩
      simp only [isForeign, Bool.or_eq_true, decide_eq_true_eq] at hc
      rcases hc with ((rfl | rfl) | rfl) | rfl <;> rfl
    have hname : ∀ name ∈ Text.Numeral.names, c ∉ name.toList := by
      simp only [isForeign, Bool.or_eq_true, decide_eq_true_eq] at hc
      rcases hc with ((rfl | rfl) | rfl) | rfl <;> decide
    refine hname _ (List.contains_iff_mem.mp h) ?_
    rwa [String.toList_ofList]

/-- What is not in quotes, but has a quote, a bracket or a slash in it, lets every literal pass. -/
theorem fitsMember_of_isForeign {type : String} {c : Char} (hc : isForeign c = true)
    (hmem : c ∈ type.toList) (htype : stringType? type = none) (l : Literal) :
    l.fitsMember type = true := by
  have hword (word : String) (hword : c ∉ word.toList) : type ≠ word := by
    rintro rfl
    exact hword hmem
  have hwords : ∀ word ∈ ["string", "number", "boolean", "true", "false"], c ∉ word.toList := by
    simp only [isForeign, Bool.or_eq_true, decide_eq_true_eq] at hc
    rcases hc with ((rfl | rfl) | rfl) | rfl <;> decide
  have hnumeral : Text.Numeral.isNumeral type = false :=
    Bool.eq_false_iff.mpr fun h => notMem_of_isNumeral hc h hmem
  simp only [List.forall_mem_cons] at hwords
  obtain ⟨hstring, hnumber, hboolean, htrue, hfalse, -⟩ := hwords
  rw [Literal.fitsMember, htype]
  simp [hword _ hstring, hword _ hnumber, hword _ hboolean, hword _ htrue, hword _ hfalse, hnumeral]

/-! ### Quoted members -/

theorem unquote?_quoted (q : Char) (body : List Char) : unquote? q (q :: (body ++ [q])) = some body := by
  rw [unquote?, if_pos ⟨rfl, by simp⟩, List.dropLast_concat]

theorem unquote?_eq_none {q : Char} {cs : List Char} (h : cs.head? ≠ some q) :
    unquote? q cs = none := by
  cases cs with
  | nil => rfl
  | cons c cs =>
    rw [unquote?, if_neg]
    rintro ⟨rfl, -⟩
    exact h rfl

theorem stringType?_quoted {q : Char} (hq : q = '"' ∨ q = '\'') (body : List Char) :
    stringType? (String.ofList (q :: (body ++ [q]))) = some (String.ofList body) := by
  rw [stringType?, String.toList_ofList]
  rcases hq with rfl | rfl
  · rw [unquote?_quoted]
    rfl
  · rw [unquote?_quoted, unquote?_eq_none (by simp)]
    rfl

/-- A text is in quotes only if it starts with the quote that it ends with, and is more than it. -/
theorem stringType?_eq_none {q : Char} {cs : List Char} (hcs : cs.head? ≠ some q) :
    stringType? (String.ofList (cs ++ [q])) = none := by
  have hnone (q' : Char) : unquote? q' (cs ++ [q]) = none := by
    cases cs with
    | nil =>
      rw [List.nil_append, unquote?, if_neg]
      simp
    | cons c cs =>
      rw [List.cons_append, unquote?, if_neg]
      rintro ⟨rfl, hlast⟩
      obtain rfl : q = c := by simpa using hlast
      exact hcs rfl
  rw [stringType?, String.toList_ofList, hnone, hnone]
  rfl

/-! ### String literals in a union -/

/-- A string literal in a union, as it is written, with the white space around it. -/
structure Member where
  front : List Char
  quote : Char
  body : List Char
  back : List Char
  isFront : ∀ c ∈ front, Script.isSpace c = true
  isQuote : quote = '"' ∨ quote = '\''
  isBody : AreQuotable quote body
  isBack : ∀ c ∈ back, Script.isSpace c = true

theorem isBlank_of_isSpace {c : Char} (hc : Script.isSpace c = true) : isBlank c = true := by
  simp only [Script.isSpace, Bool.or_eq_true, decide_eq_true_eq] at hc
  rcases hc with ((rfl | rfl) | rfl) | rfl <;> rfl

theorem eq_backslash_of_areQuotable {q c : Char} {xs ys : List Char} (hq : q = '"' ∨ q = '\'')
    (h : AreQuotable q (xs ++ c :: q :: ys)) : c = '\\' := by
  have hfirst (cs : List Char) : ¬ AreQuotable q (q :: cs) := by
    intro h
    cases h with
    | escape => rcases hq with hq | hq <;> cases hq
    | plain hquote => exact hquote rfl
  generalize hcs : xs ++ c :: q :: ys = cs at h
  induction h generalizing xs with
  | nil => simp at hcs
  | @escape d cs h ih =>
    match xs, hcs with
    | [], hcs => exact (List.cons.inj hcs).1
    | [_], hcs =>
      obtain ⟨-, hcs⟩ := List.cons.inj hcs
      obtain ⟨-, rfl⟩ := List.cons.inj hcs
      exact absurd h (hfirst _)
    | _ :: _ :: xs, hcs => exact ih (List.cons.inj (List.cons.inj hcs).2).2
  | plain hquote hescape hend h ih =>
    match xs, hcs with
    | [], hcs =>
      obtain ⟨-, rfl⟩ := List.cons.inj hcs
      exact absurd h (hfirst _)
    | _ :: xs, hcs => exact ih (List.cons.inj hcs).2

namespace Member

/-- The characters of a literal and of the white space around it. -/
def chars (m : Member) : List Char := m.front ++ m.quote :: (m.body ++ m.quote :: m.back)

/-- The string that a literal means. -/
def value (m : Member) : String := String.ofList (Script.unescape m.body)

variable (m : Member)

theorem isBlank_quote : isBlank m.quote = false := by
  rcases m.isQuote with h | h <;> rw [h] <;> rfl

theorem isForeign_quote : isForeign m.quote = true := by
  rcases m.isQuote with h | h <;> rw [h] <;> rfl

theorem trimChars_chars : trimChars m.chars = m.quote :: (m.body ++ [m.quote]) := by
  have hchars : m.chars = (m.front ++ m.quote :: m.body) ++ m.quote :: m.back := by
    rw [chars, List.append_assoc]
    rfl
  have hback : ∀ c ∈ m.back, isBlank c = true := fun c hc => isBlank_of_isSpace (m.isBack c hc)
  have hfront : ∀ c ∈ m.front, isBlank c = true := fun c hc => isBlank_of_isSpace (m.isFront c hc)
  rw [hchars, trimChars_concat m.isBlank_quote hback, List.dropWhile_append_of_pos hfront,
    List.dropWhile_cons_of_neg (by simp [m.isBlank_quote])]
  rfl

theorem bar_notMem_chars (h : '|' ∉ m.body) : '|' ∉ m.chars := by
  have hquote : '|' ≠ m.quote := by
    rcases m.isQuote with hq | hq <;> rw [hq] <;> decide
  have hfront : '|' ∉ m.front := fun hc => absurd (m.isFront _ hc) (by decide)
  have hback : '|' ∉ m.back := fun hc => absurd (m.isBack _ hc) (by decide)
  simp [chars, hquote, hfront, hback, h]

theorem exists_part_of_bar (h : '|' ∈ m.body) :
    ∃ p ∈ unionParts m.chars, ∃ cs, trimChars p = cs ++ [m.quote] ∧ cs.head? ≠ some m.quote := by
  obtain ⟨ws, us, hreverse, hws⟩ := List.eq_append_cons_of_mem (List.mem_reverse.mpr h)
  have hbody : m.body = us.reverse ++ '|' :: ws.reverse := by
    rw [← List.reverse_reverse m.body, hreverse]
    simp
  have hchars : m.chars =
      (m.front ++ m.quote :: us.reverse) ++ '|' :: (ws.reverse ++ m.quote :: m.back) := by
    simp [chars, hbody]
  have hback : ∀ c ∈ m.back, isBlank c = true := fun c hc => isBlank_of_isSpace (m.isBack c hc)
  have hnobar : '|' ∉ ws.reverse ++ m.quote :: m.back := by
    have hquote : '|' ≠ m.quote := by
      rcases m.isQuote with hq | hq <;> rw [hq] <;> decide
    have hspace : '|' ∉ m.back := fun hc => absurd (m.isBack _ hc) (by decide)
    simp [hws, hquote, hspace]
  refine ⟨ws.reverse ++ m.quote :: m.back, ?_, ws.reverse.dropWhile isBlank,
    trimChars_concat m.isBlank_quote hback, ?_⟩
  · rw [hchars, unionParts_append, unionParts_of_notMem hnobar]
    simp
  · -- a quote there would stand behind the bar or a blank, but not behind a backslash
    intro hhead
    obtain ⟨vs, hvs⟩ : ∃ vs, ws.reverse.dropWhile isBlank = m.quote :: vs := by
      cases hdrop : ws.reverse.dropWhile isBlank with
      | nil => simp [hdrop] at hhead
      | cons c vs =>
        obtain rfl : c = m.quote := by simpa [hdrop] using hhead
        exact ⟨vs, rfl⟩
    have hsplit : m.body =
        us.reverse ++ ('|' :: ws.reverse.takeWhile isBlank) ++ m.quote :: vs := by
      rw [hbody, ← hvs]
      simp [List.takeWhile_append_dropWhile]
    obtain ⟨xs, c, hlast⟩ : ∃ xs c, '|' :: ws.reverse.takeWhile isBlank = xs ++ [c] :=
      List.eq_nil_or_concat' _ |>.resolve_left (by simp)
    have hquotable := m.isBody
    rw [hsplit, hlast, ← List.append_assoc, List.append_assoc] at hquotable
    obtain rfl : c = '\\' := eq_backslash_of_areQuotable m.isQuote hquotable
    have hmem : '\\' ∈ '|' :: ws.reverse.takeWhile isBlank := by
      rw [hlast]
      simp
    rcases List.mem_cons.mp hmem with hbar | hblank
    · cases hbar
    · cases List.mem_takeWhile_imp hblank

/-- The literals are those that the grammar of scripts spells. -/
theorem spells_iff {cs : List Char} :
    Peg.Spells Script.grammar (Script.grammar.body .stringLit) cs ↔
      ∃ m : Member, cs = m.quote :: (m.body ++ [m.quote]) := by
  rw [Script.spells_stringLit_iff]
  constructor
  · rintro ⟨quote, body, hquote, hbody, rfl⟩
    exact ⟨⟨[], quote, body, [], by simp, hquote, hbody, by simp⟩, rfl⟩
  · rintro ⟨m, rfl⟩
    exact ⟨m.quote, m.body, m.isQuote, m.isBody, rfl⟩

/-- **What a literal in a union lets pass.** -/
theorem any_unionParts (value : String) :
    (∃ p ∈ unionParts m.chars,
        (Literal.string value).fitsMember (String.ofList (trimChars p)) = true) ↔
      '|' ∈ m.body ∨ value.toList = m.body := by
  by_cases hbar : '|' ∈ m.body
  · refine iff_of_true ?_ (.inl hbar)
    obtain ⟨p, hp, cs, htrim, hhead⟩ := m.exists_part_of_bar hbar
    refine ⟨p, hp, ?_⟩
    rw [htrim]
    exact fitsMember_of_isForeign m.isForeign_quote (by simp) (stringType?_eq_none hhead) _
  · rw [unionParts_of_notMem (m.bar_notMem_chars hbar)]
    simp only [List.mem_singleton, exists_eq_left, hbar, false_or]
    rw [trimChars_chars, Literal.fitsMember, stringType?_quoted m.isQuote]
    simp only [Literal.string.injEq, decide_eq_true_eq]
    exact String.ext_iff.trans (by rw [String.toList_ofList])

end Member

/-! ### Types of parameters -/

section

variable {cs xs ys : List Char} {c : Char}

theorem elementType_of_ne (hcs : cs = xs ++ c :: ys) (hc : isBlank c = false) (hbracket : c ≠ ']')
    (hys : ∀ d ∈ ys, isBlank d = true) :
    elementType (trim (String.ofList cs)) = trim (trim (String.ofList cs)) := by
  rw [elementType, if_neg]
  rw [List.isSuffixOf_iff_suffix, trim_ofList, String.toList_ofList, String.toList_ofList, hcs,
    trimChars_concat hc hys]
  rintro ⟨zs, hzs⟩
  have hlast := congrArg List.getLast? hzs
  simp at hlast
  exact hbracket hlast.symm

theorem elementType_list (hcs : cs = xs ++ c :: ys) (hc : isBlank c = false) :
    elementType (trim (String.ofList (cs ++ ['[', ']']))) =
      trim (String.ofList (cs.dropWhile isBlank)) := by
  have hdrop : ¬ (cs.dropWhile isBlank).isEmpty = true := by
    rw [List.isEmpty_iff, List.dropWhile_eq_nil_iff, hcs]
    intro hall
    rw [hall c (by simp)] at hc
    cases hc
  have htrim : trimChars (cs ++ ['[', ']']) = cs.dropWhile isBlank ++ ['[', ']'] := by
    rw [show cs ++ ['[', ']'] = cs ++ ['['] ++ ']' :: [] by simp, trimChars_concat rfl (by simp),
      List.dropWhile_append, if_neg hdrop]
    simp
  rw [trim_ofList, htrim, elementType, String.toList_ofList, if_pos]
  · simp
  · rw [List.isSuffixOf_iff_suffix, String.toList_ofList]
    exact List.suffix_append _ _

end

/-- How a union stands in the type of a parameter: in a group or by itself, and as the type of the
elements of a list or as the whole type. -/
structure Frame where
  isGrouped : Bool
  isList : Bool

def unionChars (members : List Member) : List Char :=
  ['|'].intercalate (members.map Member.chars)

theorem exists_last_member {members : List Member} (hmembers : members ≠ []) :
    ∃ (xs : List Char) (m : Member), unionChars members = xs ++ m.chars := by
  induction members with
  | nil => exact absurd rfl hmembers
  | cons m members ih =>
    cases members with
    | nil => exact ⟨[], m, by simp [unionChars]⟩
    | cons m' members =>
      obtain ⟨xs, last, hchars⟩ := ih (by simp)
      refine ⟨m.chars ++ '|' :: xs, last, ?_⟩
      rw [unionChars, List.map_cons, List.map_cons, List.intercalate_cons_cons, ← List.map_cons,
        ← unionChars, hchars]
      simp

namespace Frame

/-- The characters of a union of literals, in a group or not. -/
def core (f : Frame) (members : List Member) : List Char :=
  if f.isGrouped then '(' :: (unionChars members ++ [')']) else unionChars members

/-- The type that a union of literals gives. -/
def type (f : Frame) (members : List Member) : String :=
  String.ofList (if f.isList then f.core members ++ ['[', ']'] else f.core members)

variable {f : Frame} {members : List Member}

/-- A union ends with a quote or the end of a group, but for white space. -/
theorem exists_end (f : Frame) (hmembers : members ≠ []) : ∃ xs c ys, f.core members = xs ++ c :: ys ∧
    isBlank c = false ∧ c ≠ ']' ∧ ∀ d ∈ ys, isBlank d = true := by
  rw [core]
  split
  · exact ⟨'(' :: unionChars members, ')', [], by simp, rfl, by decide, by simp⟩
  · obtain ⟨xs, m, hchars⟩ := exists_last_member hmembers
    refine ⟨xs ++ (m.front ++ m.quote :: m.body), m.quote, m.back, ?_, m.isBlank_quote, ?_,
      fun c hc => isBlank_of_isSpace (m.isBack c hc)⟩
    · simp [hchars, Member.chars]
    · rcases m.isQuote with h | h <;> rw [h] <;> decide

theorem unionMembers_type {p : Param} (hmembers : members ≠ [])
    (hlist : f.isList = true → p.isRest = true) :
    unionMembers (if p.isRest then elementType (trim (f.type members)) else trim (f.type members)) =
      unionMembers (String.ofList (f.core members)) := by
  obtain ⟨xs, c, ys, hcore, hc, hbracket, hys⟩ := f.exists_end hmembers
  rw [type]
  cases hf : f.isList with
  | false =>
    rw [if_neg Bool.false_ne_true]
    split
    · rw [elementType_of_ne hcore hc hbracket hys, trim_ofList, unionMembers_trim, ← trim_ofList,
        unionMembers_trim]
    · exact unionMembers_trim _
  | true =>
    rw [if_pos (hlist hf), if_pos rfl, elementType_list hcore hc, unionMembers_trim,
      unionMembers_ofList, unionMembers_ofList, map_trimChars_dropWhile]

/-- **What a union of literals lets pass.** -/
theorem fits_core (hmembers : members ≠ []) (value : String) :
    (∃ part ∈ unionMembers (String.ofList (f.core members)),
        (Literal.string value).fitsMember part = true) ↔
      f.isGrouped = true ∨ (∃ m ∈ members, '|' ∈ m.body) ∨
        ∃ m ∈ members, value.toList = m.body := by
  rw [unionMembers_ofList, core]
  simp only [List.map_map, List.mem_map, exists_exists_and_eq_and, Function.comp_apply]
  cases f.isGrouped with
  | true =>
    refine iff_of_true ?_ (.inl rfl)
    rw [if_pos rfl]
    obtain ⟨p, ps, -, hcons⟩ :=
      unionParts_cons (c := '(') (by decide) (unionChars members ++ [')'])
    refine ⟨'(' :: p, by simp [hcons], ?_⟩
    obtain ⟨cs, hcs⟩ := exists_trimChars_cons (c := '(') rfl p
    rw [hcs]
    refine fitsMember_of_isForeign (c := '(') rfl (by simp) ?_ _
    rw [stringType?, String.toList_ofList, unquote?_eq_none (by simp), unquote?_eq_none (by simp)]
    rfl
  | false =>
    rw [if_neg Bool.false_ne_true, unionChars, unionParts_intercalate (by simpa using hmembers)]
    simp only [List.flatMap_map, List.mem_flatMap, Bool.false_eq_true, false_or]
    calc (∃ p, (∃ m ∈ members, p ∈ unionParts m.chars) ∧
            (Literal.string value).fitsMember (String.ofList (trimChars p)) = true)
        ↔ ∃ m ∈ members, ∃ p ∈ unionParts m.chars,
            (Literal.string value).fitsMember (String.ofList (trimChars p)) = true := by
          grind
      _ ↔ ∃ m ∈ members, '|' ∈ m.body ∨ value.toList = m.body :=
          exists_congr fun m => and_congr_right fun _ => m.any_unionParts value
      _ ↔ (∃ m ∈ members, '|' ∈ m.body) ∨ ∃ m ∈ members, value.toList = m.body := by
          simp only [and_or_left, exists_or]

end Frame

/-! ### Values -/

theorem unescape_eq_self {cs : List Char} (h : '\\' ∉ cs) : Script.unescape cs = cs := by
  fun_induction Script.unescape cs with
  | case1 => rfl
  | case2 c => rfl
  | case3 d cs ih => exact absurd List.mem_cons_self h
  | case4 c d cs hc ih =>
    rw [ih]
    exact fun hmem => h (List.mem_cons_of_mem _ hmem)

theorem length_unescape_le (cs : List Char) : (Script.unescape cs).length ≤ cs.length := by
  fun_induction Script.unescape cs with
  | case1 => exact Nat.le_refl _
  | case2 c => exact Nat.le_refl _
  | case3 d cs ih => exact Nat.succ_le_succ (Nat.le_succ_of_le ih)
  | case4 c d cs hc ih => exact Nat.succ_le_succ ih

theorem length_unescape_lt {q : Char} {cs : List Char} (h : AreQuotable q cs) (hmem : '\\' ∈ cs) :
    (Script.unescape cs).length < cs.length := by
  induction h with
  | nil => cases hmem
  | @escape c cs h ih =>
    rw [Script.unescape, if_pos rfl]
    exact Nat.succ_lt_succ (Nat.lt_succ_of_le (length_unescape_le cs))
  | @plain c cs hquote hescape hend h ih =>
    have hmem := (List.mem_cons.mp hmem).resolve_left (Ne.symm hescape)
    cases cs with
    | nil => cases hmem
    | cons d cs =>
      rw [Script.unescape, if_neg hescape]
      exact Nat.succ_lt_succ (ih hmem)

theorem backslash_notMem_of_values {members : List Member}
    (h : ∀ value : String, (∃ m ∈ members, value.toList = m.body) ↔ ∃ m ∈ members, value = m.value) :
    ∀ m ∈ members, '\\' ∉ m.body := by
  by_contra hsome
  push Not at hsome
  -- what is written in the longest literal with an escape would have to be the value of a longer one
  let length (m : Member) : Nat := m.body.length
  let escaped := members.filter fun m => '\\' ∈ m.body
  have hescaped (m : Member) : m ∈ escaped ↔ m ∈ members ∧ '\\' ∈ m.body := by simp [escaped]
  obtain ⟨m, hlongest⟩ : ∃ m, escaped.argmax length = some m := by
    obtain ⟨m, hm, hescape⟩ := hsome
    rw [← Option.ne_none_iff_exists', ne_eq, List.argmax_eq_none]
    exact List.ne_nil_of_mem ((hescaped m).mpr ⟨hm, hescape⟩)
  obtain ⟨hm, hescape⟩ := (hescaped m).mp (List.argmax_mem hlongest)
  obtain ⟨m', hm', hvalue⟩ := (h (String.ofList m.body)).mp ⟨m, hm, String.toList_ofList⟩
  have hbody : m.body = Script.unescape m'.body := String.ofList_injective hvalue
  have hescape' : '\\' ∈ m'.body := by
    by_contra hnone
    rw [hbody, unescape_eq_self hnone] at hescape
    exact hnone hescape
  have hle : length m' ≤ length m :=
    List.le_of_mem_argmax ((hescaped m').mpr ⟨hm', hescape'⟩) hlongest
  have hlt := length_unescape_lt m'.isBody hescape'
  rw [← hbody] at hlt
  exact Nat.lt_irrefl _ (Nat.lt_of_lt_of_le hlt hle)

/-! ### Arguments -/

section

variable {s : Signature} {index : Nat} {p : Param} {f : Frame} {members : List Member}

/-- **What a parameter that is a union of literals lets pass.** -/
theorem argumentMismatch_union (hp : paramAt s index = some p)
    (htype : p.type? = some (f.type members)) (hmembers : members ≠ [])
    (hlist : f.isList = true → p.isRest = true) {a : Arg} {value : String}
    (ha : Literal.of? a.value = some (.string value)) :
    argumentMismatch s index a = none ↔
      f.isGrouped = true ∨ (∃ m ∈ members, '|' ∈ m.body) ∨
        ∃ m ∈ members, value.toList = m.body := by
  rw [← f.fits_core hmembers value, argumentMismatch, parameterType, hp, ha]
  simp only [Option.bind_some, htype, Option.map_some]
  rw [Literal.fits, f.unionMembers_type hmembers hlist]
  simp

/-- **Literals in a union are compared as they are written.** A string is let through if it is what is
written between the quotes of a literal of the union, and always if the union stands in a group or has
a bar in a literal. That it is let through exactly if it is the value of a literal of the union holds
only for the unions that stand in no group and have no bar and no escape in their literals. -/
theorem literal_unions (hp : paramAt s index = some p)
    (htype : p.type? = some (f.type members)) (hmembers : members ≠ [])
    (hlist : f.isList = true → p.isRest = true) :
    (∀ (a : Arg) (value : String), Literal.of? a.value = some (.string value) →
      (argumentMismatch s index a = none ↔
        f.isGrouped = true ∨ (∃ m ∈ members, '|' ∈ m.body) ∨
          ∃ m ∈ members, value.toList = m.body)) ∧
    ((∀ (a : Arg) (value : String), Literal.of? a.value = some (.string value) →
        (argumentMismatch s index a = none ↔ ∃ m ∈ members, value = m.value)) ↔
      f.isGrouped = false ∧ ∀ m ∈ members, '|' ∉ m.body ∧ '\\' ∉ m.body) := by
  have hlets {a : Arg} {value : String} (ha : Literal.of? a.value = some (.string value)) :=
    argumentMismatch_union hp htype hmembers hlist ha
  refine ⟨fun a value ha => hlets ha, fun hexact => ?_, fun ⟨hgroup, hplain⟩ a value ha => ?_⟩
  · have hvalues (value : String) : (f.isGrouped = true ∨ (∃ m ∈ members, '|' ∈ m.body) ∨
        ∃ m ∈ members, value.toList = m.body) ↔ ∃ m ∈ members, value = m.value := by
      rw [← hlets (a := .plain (.string value ⟨0, 0⟩)) rfl]
      exact hexact _ _ rfl
    -- a union has finitely many values
    obtain ⟨value, hvalue⟩ := Infinite.exists_notMem_finset (members.map Member.value).toFinset
    have hrefused : ¬ ∃ m ∈ members, value = m.value := by
      rintro ⟨m, hm, rfl⟩
      exact hvalue (List.mem_toFinset.mpr (List.mem_map_of_mem hm))
    rw [← hvalues, not_or, not_or] at hrefused
    obtain ⟨hgroup, hbar, -⟩ := hrefused
    have hescape : ∀ m ∈ members, '\\' ∉ m.body := by
      refine backslash_notMem_of_values fun value => ?_
      rw [← hvalues]
      simp [hgroup, hbar]
    push Not at hbar
    exact ⟨Bool.eq_false_iff.mpr hgroup, fun m hm => ⟨hbar m hm, hescape m hm⟩⟩
  · rw [hlets ha]
    have hbar : ¬ ∃ m ∈ members, '|' ∈ m.body := by
      rintro ⟨m, hm, hmem⟩
      exact (hplain m hm).1 hmem
    simp only [hgroup, hbar, Bool.false_eq_true, false_or]
    refine exists_congr fun m => and_congr_right fun hm => ?_
    rw [Member.value, unescape_eq_self (hplain m hm).2]
    rw [← String.toList_inj, String.toList_ofList]

/-- A parameter that takes one of two letters, each in quotes of its own kind. -/
theorem modes_literal_unions :
    let r : Member := ⟨[], '"', ['r'], [' '], by simp, .inl rfl,
      .plain (by decide) (by decide) rfl .nil, by simp [Script.isSpace]⟩
    let w : Member := ⟨[' '], '\'', ['w'], [], by simp [Script.isSpace], .inr rfl,
      .plain (by decide) (by decide) rfl .nil, by simp⟩
    let type := "\"r\" | 'w'"
    let s : Signature := ⟨"open", [⟨"mode", false, false, some type⟩], some "void"⟩
    (Frame.mk false false).type [r, w] = type ∧
      ∀ (a : Arg) (value : String), Literal.of? a.value = some (.string value) →
        (argumentMismatch s 0 a = none ↔ value = "r" ∨ value = "w") := by
  intro r w type s
  have htype : (Frame.mk false false).type [r, w] = type := rfl
  refine ⟨htype, fun a value ha => ?_⟩
  have hp : paramAt s 0 = some ⟨"mode", false, false, some type⟩ := rfl
  have hexact := (literal_unions hp (congrArg some htype.symm) (List.cons_ne_nil r [w])
    Bool.noConfusion).2.mpr ⟨rfl, by simp [r, w]⟩
  rw [hexact a value ha]
  simp [r, w, Member.value, Script.unescape]

/-- The overloads that a text of declarations gives to a name. -/
def overloadsIn (text name : String) : List Signature :=
  match (bind [.read "globals.d.ts" text .es5]).find? name with
  | some (.functions overloads) => overloads
  | _ => []

/-- The arguments of the call that a text starts with. -/
def argsIn (text : String) : List Arg :=
  match (Script.File.read "input.ts" text .es5).statements with
  | .expr (.call _ args _) :: _ => args
  | _ => []

/-- A literal with an escape refuses its own value; one with a bar takes any string, and so does a
union in a group. -/
theorem own_value_refused :
    let m : Member := ⟨[], '"', "a\\\"b".toList, [], by simp, .inl rfl,
      .plain (by decide) (by decide) rfl (.escape (.plain (by decide) (by decide) rfl .nil)), by simp⟩
    let overloads := overloadsIn "declare function f(x: \"a\\\"b\"): void;" "f"
    let args := argsIn "f(\"a\\\"b\");"
    overloads.map (·.params.map Param.type?) = [[some ((Frame.mk false false).type [m])]] ∧
      args.map (fun a => Literal.of? a.value) = [some (.string m.value)] ∧
      select overloads args = .error (.argument 0 "\"a\"b\"" "\"a\\\"b\"") ∧
      (select (overloadsIn "declare function f(x: \"a|b\"): void;" "f") (argsIn "f(\"c\");")).isOk ∧
      (select (overloadsIn "declare function f(...x: (\"a\" | \"b\")[]): void;" "f")
        (argsIn "f(\"c\");")).isOk := by
  decide +kernel

end

end LuaSnippet.Globals
