import LuaSnippet.Script.Reading
import LuaSnippet.Proofs.Peg.Derivation
import LuaSnippet.Proofs.Script.WellFormed

/-!
# Reading gives well-formed scripts

Every node of a matched text was left by the body of its rule. So the texts of names and numbers are
spelled as such, no node of an expression stands directly within another one, and from the leaves up
every piece is well-formed (`wellFormed_of_read`).
-/

namespace LuaSnippet.Script

open Peg (Cursor Node Derives Spells Context Pattern)

/-! ### Names and numbers -/

theorem isName_of_spells {cs : List Char} (h : Spells grammar Rule.nameChars cs) :
    IsName (String.ofList cs) := by
  obtain ⟨xs, ys, rfl, hx, hy⟩ := Peg.spells_seq.mp h
  obtain ⟨c, rfl, hc⟩ := Peg.spells_char.mp hx
  exact ⟨c, ys, by simp, hc, hy.of_many_char⟩

theorem areDigits_of_spells {cs : List Char} (h : Spells grammar Rule.digits cs) : AreDigits cs :=
  h.of_repeated_char

theorem isNumber_of_spells {cs : List Char} (h : Spells grammar (Rule.body .numberLit) cs) :
    IsNumber (String.ofList cs) := by
  rcases Peg.spells_alt.mp h with hhex | hdecimal
  · obtain ⟨xs, ds, rfl, hmark, hdigits⟩ := Peg.spells_seq.mp hhex
    obtain ⟨hne, hdigits⟩ := hdigits.of_repeated_char
    rcases Peg.spells_alt.mp hmark with hmark | hmark
    · rw [Peg.spells_word.mp hmark]
      exact .inl ⟨'x', ds, by simp, .inl rfl, hne, hdigits⟩
    · rw [Peg.spells_word.mp hmark]
      exact .inl ⟨'X', ds, by simp, .inr rfl, hne, hdigits⟩
  · obtain ⟨whole, rest, rfl, hwhole, hrest⟩ := Peg.spells_seq.mp hdecimal
    obtain ⟨fraction, exponent, rfl, hfraction, hexponent⟩ := Peg.spells_seq.mp hrest
    refine .inr ⟨whole, fraction, exponent, by simp, areDigits_of_spells hwhole, ?_, ?_⟩
    · rcases Peg.spells_opt.mp hfraction with rfl | hfraction
      · exact .inl rfl
      · obtain ⟨point, ds, rfl, hpoint, hdigits⟩ := Peg.spells_seq.mp hfraction
        rw [Peg.spells_word.mp hpoint]
        exact .inr ⟨ds, rfl, areDigits_of_spells hdigits⟩
    · rcases Peg.spells_opt.mp hexponent with rfl | hexponent
      · exact .inl rfl
      · obtain ⟨mark, rest, rfl, hmark, hrest⟩ := Peg.spells_seq.mp hexponent
        obtain ⟨sign, ds, rfl, hsign, hdigits⟩ := Peg.spells_seq.mp hrest
        have hsigns : sign = [] ∨ sign = ['+'] ∨ sign = ['-'] := by
          rcases Peg.spells_opt.mp hsign with rfl | hsign
          · exact .inl rfl
          · rcases Peg.spells_alt.mp hsign with hsign | hsign
            · exact .inr (.inl (Peg.spells_word.mp hsign))
            · exact .inr (.inr (Peg.spells_word.mp hsign))
        rcases Peg.spells_alt.mp hmark with hmark | hmark
        · rw [Peg.spells_word.mp hmark]
          exact .inr ⟨'e', sign, ds, rfl, .inl rfl, hsigns, areDigits_of_spells hdigits⟩
        · rw [Peg.spells_word.mp hmark]
          exact .inr ⟨'E', sign, ds, rfl, .inr rfl, hsigns, areDigits_of_spells hdigits⟩

theorem spells_of_atomic {ctx : Context} {r : Rule} {start stop : Cursor} {nodes : List (Node Rule)}
    (hr : grammar.manner r = .atomic)
    (h : Derives grammar (ctx.inner (grammar.manner r)) (grammar.body r) start nodes stop) :
    Spells grammar (grammar.body r) (start.textTo stop) := by
  have hctx : (ctx.inner (grammar.manner r)).atomicity ≠ .spaced := by
    rw [hr]
    simp [Context.inner]
  obtain ⟨cs, hcs, hspells⟩ := h.spells hctx
  rw [Cursor.textTo_eq hcs]
  exact hspells

theorem isName_of_derives {ctx : Context} {r : Rule} (hr : r = .ident ∨ r = .propName)
    {start stop : Cursor} {nodes : List (Node Rule)}
    (h : Derives grammar (ctx.inner (grammar.manner r)) (grammar.body r) start nodes stop) :
    IsName (String.ofList (start.textTo stop)) := by
  rcases hr with rfl | rfl
  · obtain ⟨xs, ys, hsplit, hx, hy⟩ := Peg.spells_seq.mp (spells_of_atomic rfl h)
    rw [hsplit, Peg.spells_forbid.mp hx]
    exact isName_of_spells hy
  · exact isName_of_spells (spells_of_atomic rfl h)

/-! ### Nodes -/

/-- The rules that are called where an operand is read, those that stand for others included. -/
def isWithinExpr : Rule → Bool
  | .expr | .statement | .typePrimary => false
  | _ => true

/-- No node of an expression stands directly within another one. -/
theorem rule_ne_expr_of_derives {ctx : Context} (hctx : ctx.makesNodes = true)
    {start stop : Cursor} {nodes : List (Node Rule)}
    (h : Derives grammar ctx (Rule.body .expr) start nodes stop) : ∀ x ∈ nodes, x.rule ≠ .expr := by
  have hsilent : ∀ r, grammar.manner r = .silent → isWithinExpr r = true →
      ∀ r' ∈ (grammar.body r).calls, isWithinExpr r' = true := by
    intro r hr hwithin
    cases r with
    | statement | typePrimary => exact absurd hwithin (by decide)
    | primary => decide
    | _ => cases hr
  have hcalls : ∀ r ∈ (Rule.body .expr).calls, isWithinExpr r = true := by decide
  intro x hx heq
  have hwithin := h.rule_of_mem hsilent hctx hcalls x hx
  rw [heq] at hwithin
  exact absurd hwithin (by decide)

mutual

/-- The piece of a derived node is well-formed, and it is an operation only if the node is one of an
expression. -/
theorem wellFormed_ofNode : ∀ (x : Node Rule), x.IsDerived grammar → ∀ p, Piece.ofNode x = some p →
    p.WellFormed ∧ (x.rule ≠ .expr → ∀ e, p.primary? = some e → e.isOperand = true)
  | .mk rule start stop nodes, hx, p, h => by
    cases hx with
    | @mk ctx _ _ _ _ hnode hbody hwithin =>
      obtain ⟨parts, hparts, hmake⟩ := Option.bind_eq_some_iff.mp h
      have hpieces := wellFormed_ofNodes nodes hwithin parts hparts
      refine ⟨?_, fun hrule e he => Piece.isOperand_of_make hrule hmake he⟩
      refine Piece.wellFormed_make (fun p hp => (hpieces p hp).1) (fun hr => ?_) (fun hr => ?_)
        (fun hr p hp => ?_) hmake
      · exact isName_of_derives hr hbody
      · subst hr
        exact isNumber_of_spells (spells_of_atomic rfl hbody)
      · subst hr
        exact (hpieces p hp).2 (rule_ne_expr_of_derives hnode hbody)

theorem wellFormed_ofNodes : ∀ (xs : List (Node Rule)), (∀ x ∈ xs, x.IsDerived grammar) →
    ∀ ps, Piece.ofNodes xs = some ps → ∀ p ∈ ps, p.WellFormed ∧
      ((∀ x ∈ xs, x.rule ≠ .expr) → ∀ e, p.primary? = some e → e.isOperand = true)
  | [], _, ps, h => by
    obtain rfl := Option.some.inj h
    simp
  | x :: xs, hxs, ps, h => by
    obtain ⟨hx, hrest⟩ := List.forall_mem_cons.mp hxs
    obtain ⟨p, hp, hmap⟩ := Option.bind_eq_some_iff.mp h
    obtain ⟨ps, hps, rfl⟩ := Option.map_eq_some_iff.mp hmap
    obtain ⟨hwell, hoperand⟩ := wellFormed_ofNode x hx p hp
    refine List.forall_mem_cons.mpr ⟨⟨hwell, fun hrule => ?_⟩, fun q hq => ?_⟩
    · exact hoperand (hrule x (by simp))
    · obtain ⟨hq, hqoperand⟩ := wellFormed_ofNodes xs hrest ps hps q hq
      exact ⟨hq, fun hrule => hqoperand fun y hy => hrule y (List.mem_cons_of_mem x hy)⟩

end

theorem parse_of_read {text : String} {body : List Stmt} (h : read text = .ok body) :
    ∃ nodes stop log span, grammar.parse .program text.toList = .matched nodes stop log ∧
      Piece.ofNodes nodes = some [.block body span] := by
  have hread : read? text = some (.ok body) := by
    unfold read at h
    cases hread : read? text with
    | none => simp [hread] at h
    | some answer => rw [hread, Option.getD_some] at h; rw [h]
  unfold read? at hread
  split at hread
  · rename_i nodes stop log hmatched
    obtain ⟨body', hbody, heq⟩ := Option.map_eq_some_iff.mp hread
    obtain rfl : body' = body := by simpa using heq
    unfold statementsOf at hbody
    split at hbody
    · rename_i body'' span hpieces
      obtain rfl := Option.some.inj hbody
      exact ⟨nodes, stop, log, span, hmatched, hpieces⟩
    · simp at hbody
  · simp at hread
  · simp at hread

/-- **What is read from a text is well-formed.** -/
theorem wellFormed_of_read {text : String} {body : List Stmt} (h : read text = .ok body) :
    ∀ s ∈ body, s.WellFormed := by
  obtain ⟨nodes, stop, log, span, hmatched, hpieces⟩ := parse_of_read h
  have hderived := (Peg.Grammar.derives_of_run hmatched).isDerived
  exact (wellFormed_ofNodes nodes hderived _ hpieces (.block body span) (by simp)).1

end LuaSnippet.Script
