import LuaSnippet.Proofs.Lowering.Names
import LuaSnippet.Proofs.Lowering.Printable

/-!
# Names that are merged

A dollar sign has a spelling of three characters in Lua, and a keyword has a prefix. Both are legal in a
name of a script as well, so that a name may already be the Lua name of another one. This happens in two
ways only (`nameOf_eq_iff`): the names differ in whether a dollar sign is spelled out, or one is a
keyword and the other one the keyword with the prefix. So a use of a variable has the Lua name of
another variable that is declared around it exactly if the two are merged (`renamings_lower`).
-/

namespace LuaSnippet.Lua

/-! ### Dollar signs -/

/-- Whether some characters are the same as others, if a dollar sign and its spelling are not told
apart. -/
inductive SpeltAlike : List Char → List Char → Prop where
  | nil : SpeltAlike [] []
  | cons (c : Char) {cs ds} (h : SpeltAlike cs ds) : SpeltAlike (c :: cs) (c :: ds)
  | dollar_left {cs ds} (h : SpeltAlike cs ds) : SpeltAlike ('$' :: cs) ('_' :: '2' :: '4' :: ds)
  | dollar_right {cs ds} (h : SpeltAlike cs ds) : SpeltAlike ('_' :: '2' :: '4' :: cs) ('$' :: ds)

theorem nameChars_dollar : nameChars '$' = ['_', '2', '4'] := rfl

theorem nameChars_of_ne {c : Char} (hc : c ≠ '$') : nameChars c = [c] :=
  if_neg hc

theorem exists_cons_of_cons_eq {c : Char} (hc : c ≠ '_') {cs ds : List Char}
    (h : c :: cs = ds.flatMap nameChars) : ∃ rest, ds = c :: rest ∧ cs = rest.flatMap nameChars := by
  cases ds with
  | nil => cases h
  | cons d rest =>
    rw [List.flatMap_cons] at h
    by_cases hd : d = '$'
    · rw [hd, nameChars_dollar] at h
      exact absurd (List.cons.inj h).1 hc
    · rw [nameChars_of_ne hd] at h
      obtain ⟨rfl, htail⟩ := List.cons.inj h
      exact ⟨rest, rfl, htail⟩

theorem exists_of_spelling_eq {cs ds : List Char}
    (h : '_' :: '2' :: '4' :: cs = ds.flatMap nameChars) :
    ∃ rest, (ds = '$' :: rest ∨ ds = '_' :: '2' :: '4' :: rest) ∧ cs = rest.flatMap nameChars := by
  cases ds with
  | nil => cases h
  | cons d rest =>
    rw [List.flatMap_cons] at h
    by_cases hd : d = '$'
    · rw [hd, nameChars_dollar] at h
      refine ⟨rest, .inl (by rw [hd]), ?_⟩
      simpa using h
    · rw [nameChars_of_ne hd] at h
      obtain ⟨rfl, htail⟩ := List.cons.inj h
      obtain ⟨behind, rfl, hbehind⟩ := exists_cons_of_cons_eq (by decide) htail
      obtain ⟨last, rfl, hlast⟩ := exists_cons_of_cons_eq (by decide) hbehind
      exact ⟨last, .inr rfl, hlast⟩

theorem SpeltAlike.eq {cs ds : List Char} (h : SpeltAlike cs ds) :
    cs.flatMap nameChars = ds.flatMap nameChars := by
  induction h with
  | nil => rfl
  | cons c _ ih => rw [List.flatMap_cons, List.flatMap_cons, ih]
  | dollar_left _ ih =>
    rw [List.flatMap_cons, ih]
    rfl
  | dollar_right _ ih =>
    rw [List.flatMap_cons, List.flatMap_cons, List.flatMap_cons, ih]
    rfl

theorem flatMap_nameChars_ne_nil (c : Char) (cs : List Char) :
    (c :: cs).flatMap nameChars ≠ [] := by
  rw [List.flatMap_cons]
  by_cases hc : c = '$'
  · rw [hc, nameChars_dollar]
    exact List.cons_ne_nil _ _
  · rw [nameChars_of_ne hc]
    exact List.cons_ne_nil _ _

/-- Characters have one spelling only if they are the same up to the spelling of dollar signs. -/
theorem speltAlike_of_eq {cs ds : List Char} (h : cs.flatMap nameChars = ds.flatMap nameChars) :
    SpeltAlike cs ds := by
  cases cs with
  | nil =>
    cases ds with
    | nil => exact .nil
    | cons d ds => exact absurd h.symm (flatMap_nameChars_ne_nil d ds)
  | cons c cs =>
    by_cases hc : c = '$'
    · subst hc
      obtain ⟨rest, rfl | rfl, htail⟩ := exists_of_spelling_eq h
      · exact .cons '$' (speltAlike_of_eq htail)
      · exact .dollar_left (speltAlike_of_eq htail)
    cases ds with
    | nil => exact absurd h (flatMap_nameChars_ne_nil c cs)
    | cons d ds =>
      by_cases hd : d = '$'
      · subst hd
        obtain ⟨rest, hcs | hcs, htail⟩ := exists_of_spelling_eq h.symm
        · exact absurd (List.cons.inj hcs).1 hc
        · rw [hcs]
          exact .dollar_right (speltAlike_of_eq htail.symm)
      · rw [List.flatMap_cons, List.flatMap_cons, nameChars_of_ne hc, nameChars_of_ne hd] at h
        obtain ⟨rfl, htail⟩ := List.cons.inj h
        exact .cons c (speltAlike_of_eq htail)
termination_by cs.length
decreasing_by all_goals grind

/-! ### Lua names -/

/-- Whether two names of a script have one Lua name: they differ only in whether dollar signs are spelled
out, or one is a keyword and the other one the keyword with its prefix. -/
inductive Merged (a b : String) : Prop where
  | spelt (ha : a ∉ keywords) (hb : b ∉ keywords) (h : SpeltAlike a.toList b.toList)
  | keyword_left (ha : a ∈ keywords) (hb : b = "____" ++ a)
  | keyword_right (hb : b ∈ keywords) (ha : a = "____" ++ b)

theorem nameOf_of_mem {s : String} (hs : s ∈ keywords) : nameOf s = "____" ++ s :=
  if_pos (by simpa using hs)

theorem nameOf_of_notMem {s : String} (hs : s ∉ keywords) :
    nameOf s = String.ofList (s.toList.flatMap nameChars) :=
  if_neg (by simpa using hs)

theorem prefixed_keyword {s : String} (hs : s ∈ keywords) :
    "____" ++ s ∉ keywords ∧ nameOf ("____" ++ s) = "____" ++ s := by
  have hall : ∀ w ∈ keywords, "____" ++ w ∉ keywords ∧ nameOf ("____" ++ w) = "____" ++ w := by
    decide
  exact hall s hs

/-- The Lua name of a keyword is also that of the keyword with its prefix, and of no other name that is
no keyword. -/
theorem nameOf_keyword_iff {a b : String} (ha : a ∈ keywords) (hb : b ∉ keywords) :
    nameOf a = nameOf b ↔ b = "____" ++ a := by
  rw [nameOf_of_mem ha]
  constructor
  · intro h
    have hplain : ∀ w ∈ keywords, '2' ∉ ("____" ++ w).toList := by decide
    have hchars : ("____" ++ a).toList = b.toList.flatMap nameChars := by
      rw [h, nameOf_of_notMem hb, String.toList_ofList]
    have hdollar : '$' ∉ b.toList := by
      intro hmem
      refine hplain a ha ?_
      rw [hchars]
      exact List.mem_flatMap.mpr ⟨'$', hmem, by decide⟩
    have hsame : b.toList.flatMap nameChars = b.toList := by
      rw [List.flatMap_congr fun c hc => nameChars_of_ne (ne_of_mem_of_not_mem hc hdollar),
        List.flatMap_singleton']
    rw [hsame] at hchars
    exact (String.toList_injective hchars).symm
  · rintro rfl
    exact (prefixed_keyword ha).2.symm

theorem Merged.symm {a b : String} (h : Merged a b) : Merged b a := by
  cases h with
  | spelt ha hb h => exact .spelt hb ha (speltAlike_of_eq h.eq.symm)
  | keyword_left ha hb => exact .keyword_right ha hb
  | keyword_right hb ha => exact .keyword_left hb ha

theorem merged_keyword_iff {a b : String} (ha : a ∈ keywords) (hb : b ∉ keywords) :
    Merged a b ↔ b = "____" ++ a := by
  refine ⟨fun h => ?_, .keyword_left ha⟩
  cases h with
  | spelt hna => exact absurd ha hna
  | keyword_left _ heq => exact heq
  | keyword_right hb' => exact absurd hb' hb

/-- **Two names of a script have one Lua name exactly if they are the same or are merged.** -/
theorem nameOf_eq_iff (a b : String) : nameOf a = nameOf b ↔ a = b ∨ Merged a b := by
  by_cases ha : a ∈ keywords
  · by_cases hb : b ∈ keywords
    · have hnot : ¬ Merged a b := by
        intro h
        cases h with
        | spelt hna => exact hna ha
        | keyword_left _ heq => exact (prefixed_keyword ha).1 (heq ▸ hb)
        | keyword_right _ heq => exact (prefixed_keyword hb).1 (heq ▸ ha)
      rw [nameOf_of_mem ha, nameOf_of_mem hb, or_iff_left hnot, String.append_right_inj]
    · have hne : a ≠ b := fun h => hb (h ▸ ha)
      rw [nameOf_keyword_iff ha hb, or_iff_right hne, merged_keyword_iff ha hb]
  · by_cases hb : b ∈ keywords
    · have hne : a ≠ b := fun h => ha (h ▸ hb)
      rw [eq_comm, nameOf_keyword_iff hb ha, or_iff_right hne, ← merged_keyword_iff hb ha]
      exact ⟨.symm, .symm⟩
    · rw [nameOf_of_notMem ha, nameOf_of_notMem hb, String.ofList_inj]
      constructor
      · exact fun h => .inr (.spelt ha hb (speltAlike_of_eq h))
      · rintro (rfl | hmerged)
        · rfl
        cases hmerged with
        | spelt _ _ h => exact h.eq
        | keyword_left ha' => exact absurd ha' ha
        | keyword_right hb' => exact absurd hb' hb

end LuaSnippet.Lua

namespace LuaSnippet.Lowering

open Script (Ident Way)
open Lua (Use Merged isName nameOf stmtsUses)

/-- A name of a script and its use in a Lua tree tell variables apart as far as possible: every variable
that is declared around the name is a local there, and it is the one that is used exactly if it is the
one named or is merged with it. -/
structure TellsApart (n : Ident × Way) (u : Use) : Prop where
  name_eq : u.name = nameOf n.1.name
  declared : ∀ x ∈ n.2.declared,
    nameOf x ∈ u.locals ∧ (u.name = nameOf x ↔ n.1.name = x ∨ Merged n.1.name x)

/-- **Names stay distinct unless they are merged.** The Lua name of every name is a Lua name and no
keyword, two names have the same one exactly if they are the same or merged, and so a lowered script uses
another variable than the one named only where a variable is declared that is merged with it. -/
theorem renamings_lower (st : Setting) :
    (∀ a, Script.IsName a → isName (nameOf a) = true) ∧
      (∀ a b, nameOf a = nameOf b ↔ a = b ∨ Merged a b) ∧
      ∀ body, List.Forall₂ TellsApart (Script.nameSites body) (stmtsUses [] (lower st body)) := by
  refine ⟨fun _ => isName_nameOf, Lua.nameOf_eq_iff, fun body => ?_⟩
  refine (names_lower st body).imp fun n u ⟨hname, hcovers⟩ => ⟨hname, fun x hx => ⟨hcovers x hx, ?_⟩⟩
  rw [hname]
  exact Lua.nameOf_eq_iff _ _

/-- A dollar sign is merged with its spelling, and a keyword with what it is written as: of the two
variables here only the second one is used. -/
theorem dollar_names_merged :
    let body := (Script.File.read "input.ts" "const $a = 1; const _24a = 2; print($a, _24a);"
      .es5).statements
    (Script.IsName "$a" ∧ Script.IsName "_24a") ∧ nameOf "$a" = nameOf "_24a" ∧
      nameOf "end" = nameOf "____end" ∧
      Lua.stmtsText "\n" 0 (lower ⟨.lua53, Globals.bind []⟩ body) =
        "local _24a = 1\nlocal _24a = 2\nprint(_24a, _24a)\n" := by
  have hdollar : Script.IsName "$a" := ⟨'$', ['a'], rfl, rfl, List.all_eq_true.mp (by decide)⟩
  have hspelt : Script.IsName "_24a" :=
    ⟨'_', ['2', '4', 'a'], rfl, rfl, List.all_eq_true.mp (by decide)⟩
  refine ⟨⟨hdollar, hspelt⟩, ?_⟩
  decide +kernel

end LuaSnippet.Lowering
