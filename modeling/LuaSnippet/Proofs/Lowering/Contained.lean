import LuaSnippet.Proofs.Lowering.Operators
import LuaSnippet.Proofs.Lua.Words

/-!
# Lowered scripts are lexically contained

The numbers of a lowered script are numbers of the script, so none of them ends with a sign or holds a
keyword. With that, nothing in the Lua text of a script leaves its place: string literals are closed on
their lines and no comment or long bracket is opened outside of them (`contained_lower`), and the blocks
of every statement are opened and closed by keywords that no name or key adds to (`blocks_lower`).
-/

namespace LuaSnippet.Lowering

open Script (Expr Arg Field Stmt Param Binding IsName IsNumber AreDigits Phrase)
open Lua (IsTameNumeral words endsWord isWordChar)

/-! ### Numbers are tame -/

/-- Whether characters end as a word does, and each word of them starts with a digit. -/
def IsDigitLed (cs : List Char) : Prop :=
  endsWord (cs.map some) = true ∧ ∀ w ∈ words (cs.map some), w.head?.any Char.isDigit = true

theorem isDigitLed_cons {c : Char} {cs : List Char} (hc : c.isDigit = true)
    (hcs : ∀ d ∈ cs, d.isAlphanum = true) : IsDigitLed (c :: cs) := by
  have hall : ∀ d ∈ c :: cs, isWordChar d = true := by
    refine List.forall_mem_cons.mpr ⟨?_, fun d hd => ?_⟩
    · simp [isWordChar, isAlphanum_of_isDigit hc]
    · simp [isWordChar, hcs d hd]
  constructor
  · rw [endsWord, List.getLast?_map, List.getLast?_eq_some_getLast (List.cons_ne_nil c cs)]
    exact hall _ (List.getLast_mem _)
  · rw [Lua.words_map_some (List.cons_ne_nil c cs) hall]
    exact List.forall_mem_singleton.mpr hc

theorem IsDigitLed.append {cs ds : List Char} {c : Char} (hcs : IsDigitLed cs)
    (hc : isWordChar c = false) (hds : IsDigitLed ds) : IsDigitLed (cs ++ c :: ds) := by
  have hlist : (cs ++ c :: ds).map some = cs.map some ++ (some c :: ds.map some) := by simp
  have hne : ds.map some ≠ [] := by
    intro hnil
    rw [IsDigitLed, hnil] at hds
    cases hds.1
  have hsep : (some c).any isWordChar = false := hc
  have hstart : Lua.startsWord (some c :: ds.map some) = false := hc
  constructor
  · rw [hlist, endsWord, List.getLast?_append_of_ne_nil _ (by simp),
      List.getLast?_cons_of_ne_nil hne]
    exact hds.1
  · rw [hlist, Lua.words_append fun _ => hstart, Lua.words_cons_of_not hsep]
    exact List.forall_mem_append.mpr ⟨hcs.2, hds.2⟩

theorem isDigitLed_exponent {digits exponent : List Char} (hdigits : AreDigits digits)
    (hexponent : exponent = [] ∨ Script.AreExponent exponent) : IsDigitLed (digits ++ exponent) := by
  obtain ⟨c, cs, rfl⟩ := List.exists_cons_of_ne_nil hdigits.1
  obtain ⟨hc, hcs⟩ := List.forall_mem_cons.mp hdigits.2
  have hcs : ∀ d ∈ cs, d.isAlphanum = true := fun d hd => isAlphanum_of_isDigit (hcs d hd)
  rcases hexponent with rfl | ⟨mark, sign, rest, rfl, hmark, hsign, hrest⟩
  · rw [List.append_nil]
    exact isDigitLed_cons hc hcs
  · obtain ⟨d, ds, rfl⟩ := List.exists_cons_of_ne_nil hrest.1
    obtain ⟨hd, hds⟩ := List.forall_mem_cons.mp hrest.2
    have hds : ∀ x ∈ ds, x.isAlphanum = true := fun x hx => isAlphanum_of_isDigit (hds x hx)
    have hmarked : ∀ x ∈ cs ++ [mark], x.isAlphanum = true := by
      refine List.forall_mem_append.mpr ⟨hcs, List.forall_mem_singleton.mpr ?_⟩
      rcases hmark with rfl | rfl <;> decide
    have hsigned (s : Char) (hs : isWordChar s = false) :
        IsDigitLed (c :: cs ++ mark :: ([s] ++ d :: ds)) := by
      have h := (isDigitLed_cons hc hmarked).append hs (isDigitLed_cons hd hds)
      simpa using h
    rcases hsign with rfl | rfl | rfl
    · refine isDigitLed_cons hc ?_
      refine List.forall_mem_append.mpr ⟨hcs, List.forall_mem_cons.mpr ⟨?_, ?_⟩⟩
      · exact hmarked mark (by simp)
      · exact List.forall_mem_cons.mpr ⟨isAlphanum_of_isDigit hd, hds⟩
    · exact hsigned '+' (by decide)
    · exact hsigned '-' (by decide)

/-- Each word in a number of a script starts with a digit, so it is no keyword. -/
theorem isTameNumeral_of_isNumber {text : String} (h : IsNumber text) : IsTameNumeral text := by
  have hled : IsDigitLed text.toList := by
    rcases h with ⟨mark, digits, hchars, hmark, -, hdigits⟩ |
      ⟨whole, fraction, exponent, hchars, hwhole, hfraction, hexponent⟩
    · rw [hchars]
      refine isDigitLed_cons (by decide) (List.forall_mem_cons.mpr ⟨?_, fun d hd => ?_⟩)
      · rcases hmark with rfl | rfl <;> decide
      · exact isAlphanum_of_isHexDigit (hdigits d hd)
    · rw [hchars]
      rcases hfraction with rfl | ⟨digits, rfl, hdigits⟩
      · exact isDigitLed_exponent hwhole hexponent
      · have hfront := isDigitLed_exponent hwhole (.inl rfl)
        rw [List.append_nil] at hfront
        exact hfront.append (by decide) (isDigitLed_exponent hdigits hexponent)
  refine ⟨hled.1, fun w hw hblock => ?_⟩
  have hblocks : ∀ s ∈ Lua.blockWords, s.toList.head?.any Char.isDigit = false := by decide
  have hnot := hblocks _ hblock
  rw [String.toList_ofList, hled.2 w hw] at hnot
  cases hnot

/-! ### Numbers of the parts of a lowered script -/

section

variable {P : String → Prop} {e : Lua.Expr}

theorem numbersAre_groupIf (group : Bool) (he : (Lua.Phrase.expr e).NumbersAre P) :
    (Lua.Phrase.expr (groupIf group e)).NumbersAre P := by
  cases group with
  | false => exact he
  | true => exact .of_one nofun rfl he

theorem numbersAre_builtinCall (b : Lua.Builtin) {args : List Lua.Expr}
    (hargs : ∀ a ∈ args, (Lua.Phrase.expr a).NumbersAre P) :
    (Lua.Phrase.expr (.call (.builtin b) args)).NumbersAre P := by
  have hbuiltin : (Lua.Phrase.expr (.builtin b)).NumbersAre P := .of_parts nofun rfl nofun
  exact .of_parts nofun rfl (List.forall_mem_cons.mpr ⟨hbuiltin, List.forall_mem_map.mpr hargs⟩)

theorem numbersAre_collectIf (multi : Bool) (he : (Lua.Phrase.expr e).NumbersAre P) :
    (Lua.Phrase.expr (collectIf multi e)).NumbersAre P := by
  cases multi with
  | false => exact he
  | true => exact .of_one nofun rfl he

theorem numbersAre_spreadUnless (d : Dialect) (multi : Bool)
    (he : (Lua.Phrase.expr e).NumbersAre P) :
    (Lua.Phrase.expr (spreadUnless d multi e)).NumbersAre P := by
  cases multi with
  | false => exact numbersAre_builtinCall _ (List.forall_mem_singleton.mpr he)
  | true => exact he

theorem numbersAre_lowerUnary (d : Dialect) (op : Script.UnaryOp) (group : Bool)
    (he : (Lua.Phrase.expr e).NumbersAre P) :
    (Lua.Phrase.expr (lowerUnary d op group e)).NumbersAre P := by
  have hgroup := numbersAre_groupIf group he
  cases op with
  | not => exact .of_one (by simp [lowerUnary]) rfl hgroup
  | neg => exact .of_one (by simp [lowerUnary, negate]) rfl (numbersAre_groupIf _ hgroup)
  | bitNot =>
    rw [lowerUnary]
    split
    · exact numbersAre_builtinCall _ (List.forall_mem_singleton.mpr he)
    · exact .of_one (by simp) rfl hgroup

theorem numbersAre_lowerBinary (d : Dialect) (op : Script.BinaryOp) (lhs rhs : Expr)
    {l r : Lua.Expr} (hl : (Lua.Phrase.expr l).NumbersAre P)
    (hr : (Lua.Phrase.expr r).NumbersAre P) :
    (Lua.Phrase.expr (lowerBinary d op lhs rhs l r)).NumbersAre P := by
  rw [lowerBinary]
  split
  · exact numbersAre_builtinCall _ (by simp [hl, hr])
  · refine .of_parts (by simp) rfl (List.forall_mem_cons.mpr ⟨numbersAre_groupIf _ hl, ?_⟩)
    exact List.forall_mem_singleton.mpr (numbersAre_groupIf _ hr)

theorem numbersAre_block_append {xs ys : List Lua.Stmt} (hxs : (Lua.Phrase.block xs).NumbersAre P)
    (hys : (Lua.Phrase.block ys).NumbersAre P) : (Lua.Phrase.block (xs ++ ys)).NumbersAre P := by
  refine .of_parts nofun List.map_append (List.forall_mem_append.mpr ⟨?_, ?_⟩)
  · exact fun y hy => hxs.of_mem_parts hy
  · exact fun y hy => hys.of_mem_parts hy

theorem numbersAre_block_singleton {s : Lua.Stmt} (hs : (Lua.Phrase.stmt s).NumbersAre P) :
    (Lua.Phrase.block [s]).NumbersAre P :=
  .of_one nofun rfl hs

theorem numbersAre_block_nil : (Lua.Phrase.block []).NumbersAre P :=
  .of_parts nofun rfl nofun

theorem numbersAre_packRest (params : List Param) :
    (Lua.Phrase.block (packRest params)).NumbersAre P := by
  have hdots : (Lua.Phrase.expr .dots).NumbersAre P := .of_parts nofun rfl nofun
  rw [packRest]
  split
  · exact numbersAre_block_singleton (.of_one (by simp) rfl (.of_one (by simp) rfl hdots))
  · exact numbersAre_block_nil

theorem numbersAre_declareWith (st : Setting) (ss : Scopes) (b : Binding) (init : Expr)
    (he : (Lua.Phrase.expr e).NumbersAre P) :
    (Lua.Phrase.stmt (declareWith st ss b init e)).NumbersAre P := by
  refine .of_one nofun rfl ?_
  split
  · exact numbersAre_spreadUnless _ _ he
  · exact numbersAre_collectIf _ he

theorem numbersAre_loop (st : Setting) (b : Binding) (iterable : Bool)
    (he : (Lua.Phrase.expr e).NumbersAre P) {body : List Lua.Stmt}
    (hbody : (Lua.Phrase.block body).NumbersAre P) :
    (Lua.Phrase.stmt (loop st b iterable e body)).NumbersAre P := by
  have hvalue : (Lua.Phrase.expr (.builtin .loopValue)).NumbersAre P := .of_parts nofun rfl nofun
  have hhead : (Lua.Phrase.block (loopHead st.dialect b).2).NumbersAre P := by
    rw [loopHead]
    split
    · exact numbersAre_block_singleton (.of_one (by simp) rfl
        (numbersAre_builtinCall _ (List.forall_mem_singleton.mpr hvalue)))
    · exact numbersAre_block_nil
  rw [loop]
  split
  · exact .of_parts (by simp) rfl (List.forall_mem_cons.mpr
      ⟨he, List.forall_mem_singleton.mpr hbody⟩)
  · exact .of_parts (by simp) rfl (List.forall_mem_cons.mpr
      ⟨numbersAre_builtinCall _ (List.forall_mem_singleton.mpr he),
        List.forall_mem_singleton.mpr (numbersAre_block_append hhead hbody)⟩)

end

/-! ### Numbers are kept -/

mutual

theorem numbers_lowerExpr (st : Setting) (ss : Scopes) : ∀ e : Expr, e.WellFormed →
    (Lua.Phrase.expr (lowerExpr st ss e)).NumbersAre IsNumber
  | .number text _, he => by
    have hnumber : IsNumber text := he.isSound
    exact .of_number hnumber
  | .string _ _, _ | .bool _ _, _ | .absent _, _ | .ident _, _ => .of_parts nofun rfl nofun
  | .array elements _, he =>
    .of_parts nofun rfl (List.forall_mem_map.mpr (numbers_lowerItems st ss elements
      fun a ha => he.of_mem_parts (List.mem_map_of_mem ha)))
  | .object fields _, he =>
    .of_parts nofun rfl (List.forall_mem_map.mpr (numbers_lowerFields st ss fields
      fun f hf => he.of_mem_parts (List.mem_map_of_mem hf)))
  | .call callee args _, he => by
    have hcallee := numbers_lowerExpr st ss callee (he.of_mem_parts (.head _))
    have hargs := numbers_lowerArgs st ss args fun a ha =>
      he.of_mem_parts (List.mem_cons_of_mem _ (List.mem_map_of_mem ha))
    exact .of_parts nofun rfl (List.forall_mem_cons.mpr
      ⟨numbersAre_groupIf _ hcallee, List.forall_mem_map.mpr hargs⟩)
  | .member owner property, he =>
    .of_one nofun rfl (numbersAre_groupIf _ (numbers_lowerExpr st ss owner
      (he.of_mem_parts (.head _))))
  | .nonNull inner, he => numbers_lowerExpr st ss inner (he.of_mem_parts (.head _))
  | .paren inner _, he =>
    .of_one nofun rfl (numbers_lowerExpr st ss inner (he.of_mem_parts (.head _)))
  | .unary op operand _, he =>
    numbersAre_lowerUnary _ op _ (numbers_lowerExpr st ss operand (he.of_mem_parts (.head _)))
  | .binary op lhs rhs, he => by
    obtain ⟨hlhs, hrhs⟩ := Script.wellFormed_binary.mp he
    exact numbersAre_lowerBinary _ op lhs rhs (numbers_lowerExpr st ss lhs hlhs)
      (numbers_lowerExpr st ss rhs hrhs)
  | .arrow params value _, he =>
    .of_one nofun rfl (numbers_lowerExpr st _ value (he.of_mem_parts (.head _)))
  | .closure params body _, he =>
    .of_one nofun rfl (numbersAre_block_append (numbersAre_packRest params)
      (numbers_lowerStmts st _ body fun s hs => he.of_mem_parts (List.mem_map_of_mem hs)))

theorem numbers_lowerArg (st : Setting) (ss : Scopes) : ∀ a : Arg, a.value.WellFormed →
    (Lua.Phrase.expr (lowerArg st ss a)).NumbersAre IsNumber
  | .plain value, ha => numbersAre_collectIf _ (numbers_lowerExpr st ss value ha)
  | .spread value, ha => numbersAre_spreadUnless _ _ (numbers_lowerExpr st ss value ha)

theorem numbers_lowerArgs (st : Setting) (ss : Scopes) : ∀ args : List Arg,
    (∀ a ∈ args, a.value.WellFormed) →
      ∀ e ∈ lowerArgs st ss args, (Lua.Phrase.expr e).NumbersAre IsNumber
  | [], _ => nofun
  | a :: rest, h => List.forall_mem_cons.mpr ⟨numbers_lowerArg st ss a (h a (.head _)),
      numbers_lowerArgs st ss rest fun b hb => h b (.tail _ hb)⟩

theorem numbers_lowerItems (st : Setting) (ss : Scopes) : ∀ args : List Arg,
    (∀ a ∈ args, a.value.WellFormed) →
      ∀ f ∈ lowerItems st ss args, (Lua.Phrase.expr f.value).NumbersAre IsNumber
  | [], _ => nofun
  | a :: rest, h => List.forall_mem_cons.mpr ⟨numbers_lowerArg st ss a (h a (.head _)),
      numbers_lowerItems st ss rest fun b hb => h b (.tail _ hb)⟩

theorem numbers_lowerField (st : Setting) (ss : Scopes) : ∀ f : Field, f.value.WellFormed →
    (Lua.Phrase.expr (lowerField st ss f).value).NumbersAre IsNumber
  | .mk _ value, hf => numbersAre_collectIf _ (numbers_lowerExpr st ss value hf)

theorem numbers_lowerFields (st : Setting) (ss : Scopes) : ∀ fields : List Field,
    (∀ f ∈ fields, f.value.WellFormed) →
      ∀ f ∈ lowerFields st ss fields, (Lua.Phrase.expr f.value).NumbersAre IsNumber
  | [], _ => nofun
  | f :: rest, h => List.forall_mem_cons.mpr ⟨numbers_lowerField st ss f (h f (.head _)),
      numbers_lowerFields st ss rest fun g hg => h g (.tail _ hg)⟩

theorem numbers_lowerInner (st : Setting) (ss : Scopes) : ∀ s : Stmt, s.WellFormed →
    (Lua.Phrase.block (lowerInner st ss s).1).NumbersAre IsNumber
  | .bind _ b none _, _ => numbersAre_block_singleton (.of_parts nofun rfl nofun)
  | .bind _ b (some init) _, hs =>
    numbersAre_block_singleton (numbersAre_declareWith st ss b init
      (numbers_lowerExpr st ss init (hs.of_mem_parts (.head _))))
  | .function name params body _, hs =>
    numbersAre_block_singleton (.of_one nofun rfl (numbersAre_block_append
      (numbersAre_packRest params)
      (numbers_lowerStmts st _ body fun s h => hs.of_mem_parts (List.mem_map_of_mem h))))
  | .assign target value _, hs => by
    have htarget := numbers_lowerExpr st ss target (hs.of_mem_parts (.head _))
    have hvalue := numbers_lowerExpr st ss value (hs.of_mem_parts (.tail _ (.head _)))
    exact numbersAre_block_singleton (.of_parts nofun rfl (List.forall_mem_cons.mpr
      ⟨htarget, List.forall_mem_singleton.mpr (numbersAre_collectIf _ hvalue)⟩))
  | .forOf b iterable body _, hs =>
    numbersAre_block_singleton (numbersAre_loop st b _
      (numbers_lowerExpr st ss iterable (hs.of_mem_parts (.head _)))
      (numbers_lowerInner st _ body (hs.of_mem_parts (.tail _ (.head _)))))
  | .cond test whenTrue whenFalse _, hs => by
    have htest := numbers_lowerExpr st ss test (hs.of_mem_parts (.head _))
    have hbody := numbers_lowerInner st ([] :: ss) whenTrue (hs.of_mem_parts (.tail _ (.head _)))
    have hrest := numbers_lowerElse st ss whenFalse fun s h =>
      hs.of_mem_parts (.tail _ (.tail _ (List.mem_map_of_mem (Option.mem_toList.mpr h))))
    exact numbersAre_block_singleton (.of_parts nofun rfl (List.forall_mem_cons.mpr
      ⟨htest, List.forall_mem_cons.mpr ⟨hbody, hrest⟩⟩))
  | .result none _, _ => numbersAre_block_singleton (.of_parts nofun rfl nofun)
  | .result (some value) _, hs =>
    numbersAre_block_singleton (.of_one nofun rfl
      (numbers_lowerExpr st ss value (hs.of_mem_parts (.head _))))
  | .block body _, hs =>
    numbers_lowerStmts st ss body fun s h => hs.of_mem_parts (List.mem_map_of_mem h)
  | .expr e, hs => by
    have he := numbers_lowerExpr st ss e (hs.of_mem_parts (.head _))
    rw [lowerInner]
    split <;> exact numbersAre_block_singleton (.of_one nofun rfl he)
  | .declare _ _, _ | .typeOnly _, _ | .empty _, _ => numbersAre_block_nil

theorem numbers_lowerElse (st : Setting) (ss : Scopes) : ∀ rest : Option Stmt,
    (∀ s ∈ rest, s.WellFormed) → ∀ y ∈ (lowerElse st ss rest).parts, y.NumbersAre IsNumber
  | none, _ => nofun
  | some (.cond test whenTrue whenFalse span), h => by
    have hs := h _ rfl
    have htest := numbers_lowerExpr st ss test (hs.of_mem_parts (.head _))
    have hbody := numbers_lowerInner st ([] :: ss) whenTrue (hs.of_mem_parts (.tail _ (.head _)))
    have hrest := numbers_lowerElse st ss whenFalse fun s h =>
      hs.of_mem_parts (.tail _ (.tail _ (List.mem_map_of_mem (Option.mem_toList.mpr h))))
    exact List.forall_mem_cons.mpr ⟨htest, List.forall_mem_cons.mpr ⟨hbody, hrest⟩⟩
  | some (.bind _ _ _ _), h | some (.function _ _ _ _), h | some (.assign _ _ _), h
  | some (.forOf _ _ _ _), h | some (.result _ _), h | some (.block _ _), h | some (.expr _), h
  | some (.declare _ _), h | some (.typeOnly _), h | some (.empty _), h =>
    List.forall_mem_singleton.mpr (numbers_lowerInner st ([] :: ss) _ (h _ rfl))

theorem numbers_lowerStmts (st : Setting) (ss : Scopes) : ∀ body : List Stmt,
    (∀ s ∈ body, s.WellFormed) → (Lua.Phrase.block (lowerStmts st ss body)).NumbersAre IsNumber
  | [], _ => numbersAre_block_nil
  | s :: rest, h => by
    have hrest := fun ss => numbers_lowerStmts st ss rest fun t ht => h t (.tail _ ht)
    have hs := fun ss => numbers_lowerInner st ss s (h s (.head _))
    refine numbersAre_block_append ?_ (hrest _)
    split
    · exact numbersAre_block_singleton (.of_one nofun rfl (hs _))
    · exact hs ss

end

/-! ### The text of a lowered script -/

open Lua (HasBlocks IsLineEnd blocksOf isName keywords nameOf outside? quote stmtsGroups stmtsText)

theorem isLineEnd_of_eq {newLine : String} (h : newLine = "\n" ∨ newLine = "\r\n") :
    IsLineEnd newLine := by
  rcases h with rfl | rfl
  · exact ⟨by decide, List.all_eq_true.mp (by decide)⟩
  · exact ⟨by decide, List.all_eq_true.mp (by decide)⟩

/-- **Nothing in a Lua text leaves its place.** Of every script that is read, for every dialect and
every table of globals, the Lua text is read from the left by the rules for short string literals:
each literal is closed on its line, and outside of them there are only ASCII characters, and no two
neighbours that open a comment or a long bracket. -/
theorem contained_lower (st : Setting) {text newLine : String} {body : List Stmt}
    (hread : Script.read text = .ok body) (hline : newLine = "\n" ∨ newLine = "\r\n") :
    ∃ cs, outside? (stmtsText newLine 0 (lower st body)).toList = some cs ∧
      (∀ c, some c ∈ cs → c.toNat < 128) ∧
      ∀ o ∈ ["--", "[[", "[="], ¬ o.toList.map some <:+: cs := by
  have hwell := Script.wellFormed_of_read hread
  have hnumbers := (numbers_lowerStmts st [[]] body hwell).imp fun _ => isTameNumeral_of_isNumber
  have hprinted := Lua.isPrinted_stmtsGroups (isLineEnd_of_eq hline) 0
    (printable_lowerStmts st [[]] body hwell) hnumbers
  obtain ⟨cs, hcs, hascii, hopenings⟩ := hprinted.contained
  rw [Lua.charsOf_stmtsGroups] at hcs
  refine ⟨cs, hcs, hascii, fun o ho => hopenings o.toList ?_⟩
  exact List.mem_map_of_mem ho

/-- A script whose strings and negations could open comments and end string literals. -/
def dashedText : String :=
  "print(\"--[[ \\\" '\\n\", - - 1, \x7b \"--\": -(-2) \x7d, a - -(-3e-7));"

theorem dashedText_contained : ∃ body cs, Script.read dashedText = .ok body ∧
    stmtsText "\n" 0 (lower bareSetting body) =
      "print(\"--[[ \\\" '\\n\", -(-1), \x7b[\"--\"] = -(-2)\x7d, a - -(-3e-7))\n" ∧
    outside? (stmtsText "\n" 0 (lower bareSetting body)).toList = some cs ∧
    (∀ c, some c ∈ cs → c.toNat < 128) ∧ ∀ o ∈ ["--", "[[", "[="], ¬ o.toList.map some <:+: cs := by
  have hlua : (Script.read dashedText).toOption.map
      (fun body => stmtsText "\n" 0 (lower bareSetting body)) =
        some "print(\"--[[ \\\" '\\n\", -(-1), \x7b[\"--\"] = -(-2)\x7d, a - -(-3e-7))\n" := by
    decide +kernel
  cases hread : Script.read dashedText with
  | error refusal => simp [hread, Except.toOption] at hlua
  | ok body =>
    rw [hread] at hlua
    obtain ⟨cs, hcs, hascii, hopenings⟩ := contained_lower bareSetting hread (.inl rfl)
    exact ⟨body, cs, rfl, Option.some.inj hlua, hcs, hascii, hopenings⟩

/-- **Blocks are balanced.** For every statement within a script that is read, in any scopes, for every
dialect, table of globals and depth: in the text of its lowered form the words that open and close a
block are the ends of the blocks it was printed with, each closed behind where it is opened. A name
adds no such word in its Lua form, and neither does a key as it is printed. -/
theorem blocks_lower (st : Setting) {text newLine : String} {body : List Stmt}
    (hread : Script.read text = .ok body) (hline : IsLineEnd newLine) :
    (∀ s, (∃ t ∈ body, (Phrase.stmt s).Within (.stmt t)) → ∀ (ss : Scopes) (depth : Nat),
      ∀ ls ∈ [(lowerStmt st ss s).1, (lowerInner st ss s).1],
        HasBlocks (stmtsText newLine depth ls) (blocksOf (stmtsGroups newLine depth ls))) ∧
      (∀ name, IsName name → HasBlocks (nameOf name) []) ∧
      ∀ key, HasBlocks (if isName key then key else "[" ++ quote key ++ "]") [] := by
  refine ⟨fun s ⟨t, ht, hs⟩ ss depth => ?_, fun name hname => ?_, fun key => ?_⟩
  · have hwell : s.WellFormed := (Script.wellFormed_of_read hread t ht).of_within hs
    have hblocks {ls : List Lua.Stmt} (hls : Lua.StmtsPrintable ls)
        (hnumbers : (Lua.Phrase.block ls).NumbersAre IsNumber) :
        HasBlocks (stmtsText newLine depth ls) (blocksOf (stmtsGroups newLine depth ls)) := by
      have htame := hnumbers.imp fun _ => isTameNumeral_of_isNumber
      exact (Lua.isPrinted_stmtsGroups hline depth hls htame).hasBlocks
        (Lua.charsOf_stmtsGroups newLine depth ls).symm
    have hinner (ss : Scopes) := printable_lowerInner st ss s hwell
    have hnumbers (ss : Scopes) := numbers_lowerInner st ss s hwell
    refine List.forall_mem_cons.mpr ⟨?_, List.forall_mem_singleton.mpr ?_⟩
    · rw [lowerStmt]
      split
      · exact hblocks ⟨hinner _, trivial⟩
          (numbersAre_block_singleton (.of_one nofun rfl (hnumbers _)))
      · exact hblocks (hinner ss) (hnumbers ss)
    · exact hblocks (hinner ss) (hnumbers ss)
  · exact Lua.hasBlocks_name (isName_nameOf hname)
  · split
    · rename_i hkey
      exact Lua.hasBlocks_name hkey
    · exact Lua.hasBlocks_index key

/-- A conditional with a function in it, whose names and keys are keywords of Lua. -/
def keywordText : String :=
  "if (end) print(end.do, (x) => \x7b x.if = end; \x7d);"

theorem keywordText_blocks : ∃ s, Script.read keywordText = .ok [s] ∧ IsLineEnd "\n" ∧
    (∃ t ∈ [s], (Phrase.stmt s).Within (.stmt t)) ∧
    blocksOf (stmtsGroups "\n" 0 (lowerStmt bareSetting [[]] s).1) =
      ["if", "function", "end", "end"].map (·.toList) ∧
    HasBlocks (stmtsText "\n" 0 (lowerStmt bareSetting [[]] s).1)
      (blocksOf (stmtsGroups "\n" 0 (lowerStmt bareSetting [[]] s).1)) := by
  have hblocks : (Script.read keywordText).toOption.map (fun body => body.map fun s =>
      blocksOf (stmtsGroups "\n" 0 (lowerStmt bareSetting [[]] s).1)) =
        some [["if", "function", "end", "end"].map (·.toList)] := by
    decide +kernel
  have hline : IsLineEnd "\n" := isLineEnd_of_eq (.inl rfl)
  cases hread : Script.read keywordText with
  | error refusal => simp [hread, Except.toOption] at hblocks
  | ok body =>
    rw [hread] at hblocks
    obtain ⟨s, rfl, hs⟩ := List.map_eq_singleton_iff.mp (Option.some.inj hblocks)
    have hwithin : ∃ t ∈ [s], (Phrase.stmt s).Within (.stmt t) := ⟨s, .head _, .refl⟩
    have htext := (blocks_lower bareSetting hread hline).1 s hwithin [[]] 0
      (lowerStmt bareSetting [[]] s).1 List.mem_cons_self
    exact ⟨s, rfl, hline, hwithin, hs, htext⟩

end LuaSnippet.Lowering
