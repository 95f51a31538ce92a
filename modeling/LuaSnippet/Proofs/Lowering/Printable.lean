import LuaSnippet.Lowering.Lower
import LuaSnippet.Proofs.Lua.Spelling
import LuaSnippet.Proofs.Script.WellFormed

/-!
# Lowered scripts can be printed

The Lua name of a script's name is a Lua name, and a number of a script is a numeral. What is called or
has members stays an operand, and a minus sign before another one is grouped away from it. So a
well-formed expression is lowered to a tree that can be printed (`printable_lowerExpr`), whatever
names are local and whatever functions are declared.
-/

namespace LuaSnippet.Lowering

open Script (Expr Arg Field Stmt Param IsName IsNumber AreDigits AreExponent Phrase)
open Lua (isName nameOf nameChars keywords IsNumeral Token)

/-! ### Names -/

theorem isWordChar_of_all {cs : List Char} (h : cs.all (fun c => c.isAlphanum || c = '_') = true) :
    ∀ c ∈ cs, c.isAlphanum = true ∨ c = '_' := by
  simpa using h

theorem isWordChar_of_continuesName {c : Char} (hc : Script.Rule.continuesName c = true) :
    ∀ d ∈ nameChars c, d.isAlphanum = true ∨ d = '_' := by
  unfold nameChars
  split
  · exact isWordChar_of_all (by decide)
  · rename_i hdollar
    intro d hd
    rw [List.mem_singleton.mp hd]
    simpa [Script.Rule.continuesName, hdollar] using hc

theorem exists_cons_nameChars {c : Char} (hc : Script.Rule.startsName c = true) :
    ∃ d ds, nameChars c = d :: ds ∧ (d.isAlpha = true ∨ d = '_') ∧
      ∀ x ∈ ds, x.isAlphanum = true ∨ x = '_' := by
  unfold nameChars
  split
  · exact ⟨'_', ['2', '4'], rfl, .inr rfl, isWordChar_of_all (by decide)⟩
  · rename_i hdollar
    exact ⟨c, [], rfl, by simpa [Script.Rule.startsName, hdollar] using hc, by simp⟩

theorem flatMap_nameChars (cs : List Char) :
    '_' ∈ cs.flatMap nameChars ∨ cs.flatMap nameChars = cs := by
  by_cases hdollar : '$' ∈ cs
  · exact .inl (List.mem_flatMap.mpr ⟨'$', hdollar, by simp [nameChars]⟩)
  · have hchars : ∀ c ∈ cs, nameChars c = [c] := by
      intro c hc
      rw [nameChars, if_neg]
      rintro rfl
      exact hdollar hc
    rw [List.flatMap_congr hchars]
    simp

/-- Writing the dollar signs of a name otherwise makes it no keyword. -/
theorem notMem_keywords_flatMap {s : String} (hs : s ∉ keywords) :
    String.ofList (s.toList.flatMap nameChars) ∉ keywords := by
  have hline : ∀ w ∈ keywords, '_' ∉ w.toList := by decide
  intro hmem
  rcases flatMap_nameChars s.toList with hunderscore | hsame
  · refine hline _ hmem ?_
    rwa [String.toList_ofList]
  · rw [hsame, String.ofList_toList] at hmem
    exact hs hmem

theorem isName_nameOf {s : String} (hs : IsName s) : isName (nameOf s) = true := by
  unfold nameOf
  split
  · rename_i hkeyword
    have hkeywords : ∀ w ∈ keywords, isName ("____" ++ w) = true := by decide
    exact hkeywords s (by simpa using hkeyword)
  · rename_i hkeyword
    have hnot := notMem_keywords_flatMap (s := s) (by simpa using hkeyword)
    obtain ⟨c, cs, hchars, hc, hcs⟩ := hs
    obtain ⟨d, ds, hstart, hd, hds⟩ := exists_cons_nameChars hc
    have hlist : s.toList.flatMap nameChars = d :: (ds ++ cs.flatMap nameChars) := by
      rw [hchars, List.flatMap_cons, hstart]
      rfl
    have hrest : ∀ x ∈ ds ++ cs.flatMap nameChars, x.isAlphanum = true ∨ x = '_' := by
      intro x hx
      rcases List.mem_append.mp hx with hx | hx
      · exact hds x hx
      · obtain ⟨y, hy, hxy⟩ := List.mem_flatMap.mp hx
        exact isWordChar_of_continuesName (hcs y hy) x hxy
    rw [Lua.isName_iff, String.toList_ofList]
    exact ⟨hnot, d, _, hlist, hd, hrest⟩

/-! ### Numbers -/

theorem endsWithMark_append {cs : List Char} (hcs : ∀ c ∈ cs, c.isDigit = true ∨ c = '.')
    {mark : Char} (hmark : mark = 'e' ∨ mark = 'E') : Lua.endsWithMark (cs ++ [mark]) = true := by
  have hbase : ∀ c ∈ cs ++ [mark], c ≠ 'x' ∧ c ≠ 'X' := by
    intro c hc
    rcases List.mem_append.mp hc with hc | hc
    · constructor
      · rintro rfl
        exact absurd (hcs _ hc) (by decide)
      · rintro rfl
        exact absurd (hcs _ hc) (by decide)
    · rw [List.mem_singleton.mp hc]
      rcases hmark with rfl | rfl <;> decide
  unfold Lua.endsWithMark
  split
  · rename_i rest heq
    exact absurd rfl (hbase 'x' (by rw [heq]; simp)).1
  · rename_i rest heq
    exact absurd rfl (hbase 'X' (by rw [heq]; simp)).2
  · simpa using hmark

theorem isAlphanum_of_isDigit {c : Char} (hc : c.isDigit = true) : c.isAlphanum = true := by
  rw [Char.isAlphanum, hc, Bool.or_true]

theorem isAlphanum_of_isHexDigit {c : Char} (hc : Script.Rule.isHexDigit c = true) :
    c.isAlphanum = true := by
  have hle {a b : Char} (h : a ≤ b) : a.toNat ≤ b.toNat := h
  simp only [Script.Rule.isHexDigit, Bool.or_eq_true, Bool.and_eq_true, decide_eq_true_eq] at hc
  rw [Char.isAlphanum, Bool.or_eq_true, Lua.isAlpha_iff]
  rcases hc with (hc | ⟨hlow, hhigh⟩) | ⟨hlow, hhigh⟩
  · exact .inr hc
  · have hlow' : 97 ≤ c.toNat := hle hlow
    have hhigh' : c.toNat ≤ 102 := hle hhigh
    exact .inl (.inr ⟨hlow', by omega⟩)
  · have hlow' : 65 ≤ c.toNat := hle hlow
    have hhigh' : c.toNat ≤ 70 := hle hhigh
    exact .inl (.inl ⟨hlow', by omega⟩)

theorem valid_append_alphanum {cs ds : List Char} (hcs : (Token.word cs).Valid)
    (hds : ∀ d ∈ ds, d.isAlphanum = true) : (Token.word (cs ++ ds)).Valid := by
  refine hcs.word_append fun before d after heq => ?_
  have hd := hds d (by rw [heq]; simp)
  simp [Lua.goesOn, hd]

theorem valid_append_char {cs : List Char} (hcs : (Token.word cs).Valid) {c : Char}
    (hc : Lua.goesOn cs c = true) : (Token.word (cs ++ [c])).Valid := by
  refine hcs.word_append fun before d after heq => ?_
  obtain ⟨rfl, rfl, rfl⟩ : before = [] ∧ d = c ∧ after = [] := by
    cases before with
    | nil => simpa [eq_comm] using heq
    | cons b before => simp at heq
  rw [List.append_nil]
  exact hc

theorem valid_append_fraction {cs fraction : List Char} (hcs : (Token.word cs).Valid)
    (hnumeral : Lua.isNumeral cs = true)
    (hfraction : fraction = [] ∨ ∃ digits, fraction = '.' :: digits ∧ AreDigits digits) :
    (Token.word (cs ++ fraction)).Valid := by
  rcases hfraction with rfl | ⟨digits, rfl, hdigits⟩
  · rw [List.append_nil]
    exact hcs
  · have hpoint := valid_append_char hcs (c := '.') (by simp [Lua.goesOn, hnumeral])
    rw [List.append_cons]
    exact valid_append_alphanum hpoint fun d hd => isAlphanum_of_isDigit (hdigits.2 d hd)

theorem valid_append_exponent {cs exponent : List Char} (hcs : (Token.word cs).Valid)
    (hnumeral : ∀ ds, Lua.isNumeral (cs ++ ds) = true)
    (hchars : ∀ c ∈ cs, c.isDigit = true ∨ c = '.')
    (hexponent : exponent = [] ∨ AreExponent exponent) :
    (Token.word (cs ++ exponent)).Valid := by
  rcases hexponent with rfl | ⟨mark, sign, digits, rfl, hmark, hsign, hdigits⟩
  · rw [List.append_nil]
    exact hcs
  · have hends := endsWithMark_append hchars hmark
    have hmarked : (Token.word (cs ++ [mark])).Valid := by
      refine valid_append_char hcs ?_
      rcases hmark with rfl | rfl <;> simp [Lua.goesOn]
    have hsigned : (Token.word (cs ++ [mark] ++ sign)).Valid := by
      rcases hsign with rfl | rfl | rfl
      · rw [List.append_nil]
        exact hmarked
      · exact valid_append_char hmarked (by simp only [Lua.goesOn, hnumeral, hends]; decide)
      · exact valid_append_char hmarked (by simp only [Lua.goesOn, hnumeral, hends]; decide)
    rw [List.append_cons, ← List.append_assoc]
    exact valid_append_alphanum hsigned fun d hd => isAlphanum_of_isDigit (hdigits.2 d hd)

theorem isNumeral_of_isNumber {text : String} (h : IsNumber text) : IsNumeral text := by
  unfold IsNumeral
  rcases h with ⟨mark, digits, hchars, hmark, -, hdigits⟩ |
    ⟨whole, fraction, exponent, hchars, hwhole, hfraction, hexponent⟩
  · rw [hchars]
    refine ⟨by simp [Lua.isNumeral], Token.valid_word (by decide) ?_⟩
    refine List.forall_mem_cons.mpr ⟨?_, fun d hd => .inl (isAlphanum_of_isHexDigit (hdigits d hd))⟩
    rcases hmark with rfl | rfl <;> decide
  · obtain ⟨c, cs, rfl⟩ := List.exists_cons_of_ne_nil hwhole.1
    obtain ⟨hc, hcs⟩ := List.forall_mem_cons.mp hwhole.2
    have hnumeral (ds : List Char) : Lua.isNumeral (c :: ds) = true := by
      simp [Lua.isNumeral, hc]
    have hvalid : (Token.word (c :: cs)).Valid :=
      Token.valid_word (.inl (isAlphanum_of_isDigit hc)) fun d hd =>
        .inl (isAlphanum_of_isDigit (hcs d hd))
    have hpoint := valid_append_fraction hvalid (hnumeral cs) hfraction
    have hplain : ∀ d ∈ c :: cs ++ fraction, d.isDigit = true ∨ d = '.' := by
      intro d hd
      rcases List.mem_append.mp hd with hd | hd
      · exact .inl (hwhole.2 d hd)
      · rcases hfraction with rfl | ⟨digits, rfl, hdigits⟩
        · simp at hd
        · rcases List.mem_cons.mp hd with rfl | hd
          · exact .inr rfl
          · exact .inl (hdigits.2 d hd)
    rw [hchars, ← List.append_assoc]
    exact ⟨hnumeral _, valid_append_exponent hpoint (fun ds => hnumeral _) hplain hexponent⟩

/-! ### Groups -/

theorem printable_groupIf {group : Bool} {e : Lua.Expr} (he : e.Printable) :
    (groupIf group e).Printable := by
  cases group <;> exact he

theorem startsMinus_groupIf (e : Lua.Expr) : startsMinus (groupIf (startsMinus e) e) = false := by
  cases h : startsMinus e
  · exact h
  · rfl

theorem printable_negate {e : Lua.Expr} (he : e.Printable) : (negate e).Printable :=
  ⟨fun _ => startsMinus_groupIf e, printable_groupIf he⟩

theorem printable_lowerUnary (d : Dialect) (op : Script.UnaryOp) (group : Bool) {e : Lua.Expr}
    (he : e.Printable) : (lowerUnary d op group e).Printable := by
  cases op with
  | not => exact ⟨by simp, printable_groupIf he⟩
  | neg => exact printable_negate (printable_groupIf he)
  | bitNot =>
    rw [lowerUnary]
    split
    · exact ⟨rfl, trivial, he, trivial⟩
    · exact ⟨by simp, printable_groupIf he⟩

theorem printable_lowerBinary (d : Dialect) (op : Script.BinaryOp) (lhs rhs : Expr)
    {l r : Lua.Expr} (hl : l.Printable) (hr : r.Printable) :
    (lowerBinary d op lhs rhs l r).Printable := by
  rw [lowerBinary]
  split
  · exact ⟨rfl, trivial, hl, hr, trivial⟩
  · exact ⟨printable_groupIf hl, printable_groupIf hr⟩

theorem printable_collectIf {multi : Bool} {e : Lua.Expr} (he : e.Printable) :
    (collectIf multi e).Printable := by
  cases multi
  · exact he
  · exact ⟨he, trivial⟩

theorem printable_unpack (d : Dialect) {e : Lua.Expr} (he : e.Printable) :
    (unpack d e).Printable :=
  ⟨rfl, trivial, he, trivial⟩

theorem printable_spreadUnless (d : Dialect) {multi : Bool} {e : Lua.Expr} (he : e.Printable) :
    (spreadUnless d multi e).Printable := by
  cases multi
  · exact printable_unpack d he
  · exact he

theorem isOperand_lowerExpr (st : Setting) (ss : Scopes) : ∀ e : Expr, e.WellFormed →
    e.isOperand = true → (lowerExpr st ss e).isOperand = true
  | .nonNull inner, he, _ =>
    isOperand_lowerExpr st ss inner (he.of_mem_parts (.head _)) he.isSound
  | .number _ _, _, _ | .string _ _, _, _ | .bool _ _, _, _ | .absent _, _, _ | .ident _, _, _
  | .array _ _, _, _ | .object _ _, _, _ | .call _ _ _, _, _ | .member _ _, _, _
  | .paren _ _, _, _ | .arrow _ _ _, _, _ | .closure _ _ _, _, _ => rfl

theorem isHead_groupIf_lowerExpr (st : Setting) (ss : Scopes) : ∀ e : Expr, e.WellFormed →
    e.isOperand = true → (groupIf (groupsAsCallee e) (lowerExpr st ss e)).isHead = true
  | .nonNull inner, he, _ =>
    isHead_groupIf_lowerExpr st ss inner (he.of_mem_parts (.head _)) he.isSound
  | .paren inner _, _, _ => by cases groupsAsCallee (.paren inner _) <;> rfl
  | .number _ _, _, _ | .string _ _, _, _ | .bool _ _, _, _ | .absent _, _, _ | .ident _, _, _
  | .array _ _, _, _ | .object _ _, _, _ | .call _ _ _, _, _ | .member _ _, _, _
  | .arrow _ _ _, _, _ | .closure _ _ _, _, _ => rfl

theorem isHead_of_isCall (st : Setting) (ss : Scopes) : ∀ e : Expr, isCall e = true →
    (lowerExpr st ss e).isHead = true
  | .nonNull inner, he => isHead_of_isCall st ss inner he
  | .paren _ _, _ | .call _ _ _, _ => rfl

theorem isHead_of_isPlace (st : Setting) (ss : Scopes) {e : Expr} (he : e.isPlace = true) :
    (lowerExpr st ss e).isHead = true := by
  cases e with
  | ident | member => rfl
  | _ => cases he

/-! ### Parameters and bindings -/

theorem printable_lowerParam {params : List Param} (hparams : ∀ p ∈ params, IsName p.name) :
    ∀ p ∈ params.map lowerParam, p.Printable := by
  refine List.forall_mem_map.mpr fun p hp => ?_
  rw [lowerParam]
  split
  · trivial
  · exact isName_nameOf (hparams p hp)

theorem isName_restName? {params : List Param} (hparams : ∀ p ∈ params, IsName p.name) :
    ∀ n ∈ restName? params, isName n = true := by
  intro n hn
  obtain ⟨p, hp, rfl⟩ := Option.map_eq_some_iff.mp hn
  exact isName_nameOf (hparams p (List.mem_of_find?_eq_some hp))

theorem printable_packRest {params : List Param} (hparams : ∀ p ∈ params, IsName p.name) :
    Lua.StmtsPrintable (packRest params) := by
  unfold packRest
  split
  · rename_i name hname
    refine ⟨⟨?_, trivial, trivial⟩, trivial⟩
    exact List.forall_mem_singleton.mpr (isName_restName? hparams name hname)
  · trivial

theorem isName_bindingNames {b : Script.Binding} (hb : ∀ id ∈ b.names, IsName id.name) :
    ∀ n ∈ (bindingNames b).map nameOf, isName n = true := by
  rw [bindingNames, List.map_map]
  exact List.forall_mem_map.mpr fun id hid => isName_nameOf (hb id hid)

theorem stmtsPrintable_append {xs ys : List Lua.Stmt} (hxs : Lua.StmtsPrintable xs)
    (hys : Lua.StmtsPrintable ys) : Lua.StmtsPrintable (xs ++ ys) := by
  induction xs with
  | nil => exact hys
  | cons s xs ih => exact ⟨hxs.1, ih hxs.2⟩

theorem printable_loop (st : Setting) {b : Script.Binding} (hb : ∀ id ∈ b.names, IsName id.name)
    (iterable : Bool) {e : Lua.Expr} (he : e.Printable) {body : List Lua.Stmt}
    (hbody : Lua.StmtsPrintable body) : (loop st b iterable e body).Printable := by
  have hnames := isName_bindingNames hb
  rw [loop]
  split
  · exact ⟨hnames, he, hbody⟩
  · simp only [loopHead]
    split
    · have hloop : ∀ n ∈ ["____", Lua.Builtin.loopValue.text], isName n = true := by decide
      exact ⟨hloop, ⟨rfl, trivial, he, trivial⟩, ⟨hnames, printable_unpack _ trivial⟩, hbody⟩
    · exact ⟨List.forall_mem_cons.mpr ⟨by decide, hnames⟩, ⟨rfl, trivial, he, trivial⟩, hbody⟩

theorem printable_declareWith (st : Setting) (ss : Scopes) {b : Script.Binding}
    (hb : ∀ id ∈ b.names, IsName id.name) (init : Expr) {e : Lua.Expr} (he : e.Printable) :
    (declareWith st ss b init e).Printable := by
  refine ⟨isName_bindingNames hb, ?_⟩
  split
  · exact printable_spreadUnless _ he
  · exact printable_collectIf he

/-! ### Lowered trees can be printed -/

mutual

/-- **A well-formed expression is lowered to a tree that can be printed.** -/
theorem printable_lowerExpr (st : Setting) (ss : Scopes) : ∀ e : Expr, e.WellFormed →
    (lowerExpr st ss e).Printable
  | .number _ _, he => isNumeral_of_isNumber he.isSound
  | .ident _, he => isName_nameOf he.isSound
  | .string _ _, _ | .bool _ _, _ | .absent _, _ => trivial
  | .array elements _, he =>
    printable_lowerItems st ss elements fun a ha => he.of_mem_parts (List.mem_map_of_mem ha)
  | .object fields _, he =>
    printable_lowerFields st ss fields fun f hf => he.of_mem_parts (List.mem_map_of_mem hf)
  | .call callee args _, he => by
    have hcallee : callee.WellFormed := he.of_mem_parts (.head _)
    exact ⟨isHead_groupIf_lowerExpr st ss callee hcallee he.isSound,
      printable_groupIf (printable_lowerExpr st ss callee hcallee),
      printable_lowerArgs st ss args fun a ha =>
        he.of_mem_parts (List.mem_cons_of_mem _ (List.mem_map_of_mem ha))⟩
  | .member owner property, he => by
    have howner : owner.WellFormed := he.of_mem_parts (.head _)
    exact ⟨isHead_groupIf_lowerExpr st ss owner howner he.isSound,
      printable_groupIf (printable_lowerExpr st ss owner howner)⟩
  | .nonNull inner, he | .paren inner _, he =>
    printable_lowerExpr st ss inner (he.of_mem_parts (.head _))
  | .unary op operand _, he =>
    printable_lowerUnary _ op _ (printable_lowerExpr st ss operand (he.of_mem_parts (.head _)))
  | .binary op lhs rhs, he => by
    obtain ⟨hlhs, hrhs⟩ := Script.wellFormed_binary.mp he
    exact printable_lowerBinary _ op lhs rhs (printable_lowerExpr st ss lhs hlhs)
      (printable_lowerExpr st ss rhs hrhs)
  | .arrow params value _, he =>
    ⟨printable_lowerParam he.isSound, isName_restName? he.isSound,
      printable_lowerExpr st _ value (he.of_mem_parts (.head _))⟩
  | .closure params body _, he =>
    ⟨printable_lowerParam he.isSound, stmtsPrintable_append (printable_packRest he.isSound)
      (printable_lowerStmts st _ body fun s hs => he.of_mem_parts (List.mem_map_of_mem hs))⟩

theorem printable_lowerArg (st : Setting) (ss : Scopes) : ∀ a : Arg, a.value.WellFormed →
    (lowerArg st ss a).Printable
  | .plain value, ha => printable_collectIf (printable_lowerExpr st ss value ha)
  | .spread value, ha => printable_spreadUnless _ (printable_lowerExpr st ss value ha)

theorem printable_lowerArgs (st : Setting) (ss : Scopes) : ∀ args : List Arg,
    (∀ a ∈ args, a.value.WellFormed) → Lua.ExprsPrintable (lowerArgs st ss args)
  | [], _ => trivial
  | a :: rest, h =>
    ⟨printable_lowerArg st ss a (h a (.head _)),
      printable_lowerArgs st ss rest fun b hb => h b (.tail _ hb)⟩

theorem printable_lowerItems (st : Setting) (ss : Scopes) : ∀ args : List Arg,
    (∀ a ∈ args, a.value.WellFormed) → Lua.FieldsPrintable (lowerItems st ss args)
  | [], _ => trivial
  | a :: rest, h =>
    ⟨printable_lowerArg st ss a (h a (.head _)),
      printable_lowerItems st ss rest fun b hb => h b (.tail _ hb)⟩

theorem printable_lowerField (st : Setting) (ss : Scopes) : ∀ f : Field, f.value.WellFormed →
    (lowerField st ss f).Printable
  | .mk _ value, hf => printable_collectIf (printable_lowerExpr st ss value hf)

theorem printable_lowerFields (st : Setting) (ss : Scopes) : ∀ fields : List Field,
    (∀ f ∈ fields, f.value.WellFormed) → Lua.FieldsPrintable (lowerFields st ss fields)
  | [], _ => trivial
  | f :: rest, h =>
    ⟨printable_lowerField st ss f (h f (.head _)),
      printable_lowerFields st ss rest fun g hg => h g (.tail _ hg)⟩

theorem printable_lowerInner (st : Setting) (ss : Scopes) : ∀ s : Stmt, s.WellFormed →
    Lua.StmtsPrintable (lowerInner st ss s).1
  | .bind _ b none _, hs => ⟨isName_bindingNames hs.isSound, trivial⟩
  | .bind _ b (some init) _, hs =>
    ⟨printable_declareWith st ss hs.isSound init
      (printable_lowerExpr st ss init (hs.of_mem_parts (.head _))), trivial⟩
  | .function name params body _, hs =>
    ⟨⟨isName_nameOf hs.isSound.1, printable_lowerParam hs.isSound.2,
      stmtsPrintable_append (printable_packRest hs.isSound.2)
        (printable_lowerStmts st _ body fun s h => hs.of_mem_parts (List.mem_map_of_mem h))⟩,
      trivial⟩
  | .assign target value _, hs =>
    ⟨⟨⟨isHead_of_isPlace st ss hs.isSound,
        printable_lowerExpr st ss target (hs.of_mem_parts (.head _))⟩,
      printable_collectIf (printable_lowerExpr st ss value (hs.of_mem_parts (.tail _ (.head _))))⟩,
      trivial⟩
  | .forOf b iterable body _, hs =>
    ⟨printable_loop st hs.isSound _
      (printable_lowerExpr st ss iterable (hs.of_mem_parts (.head _)))
      (printable_lowerInner st _ body (hs.of_mem_parts (.tail _ (.head _)))), trivial⟩
  | .cond test whenTrue whenFalse _, hs =>
    ⟨⟨printable_lowerExpr st ss test (hs.of_mem_parts (.head _)),
      printable_lowerInner st _ whenTrue (hs.of_mem_parts (.tail _ (.head _))),
      printable_lowerElse st ss whenFalse fun s h =>
        hs.of_mem_parts (.tail _ (.tail _ (List.mem_map_of_mem (Option.mem_toList.mpr h))))⟩,
      trivial⟩
  | .result none _, _ => ⟨trivial, trivial⟩
  | .result (some value) _, hs =>
    ⟨printable_lowerExpr st ss value (hs.of_mem_parts (.head _)), trivial⟩
  | .block body _, hs =>
    printable_lowerStmts st ss body fun s h => hs.of_mem_parts (List.mem_map_of_mem h)
  | .expr e, hs => by
    have he := printable_lowerExpr st ss e (hs.of_mem_parts (.head _))
    rw [lowerInner]
    split
    · rename_i hcall
      exact ⟨⟨isHead_of_isCall st ss e hcall, he⟩, trivial⟩
    · exact ⟨he, trivial⟩
  | .declare _ _, _ | .typeOnly _, _ | .empty _, _ => trivial

theorem printable_lowerElse (st : Setting) (ss : Scopes) : ∀ rest : Option Stmt,
    (∀ s ∈ rest, s.WellFormed) → (lowerElse st ss rest).Printable
  | none, _ => trivial
  | some (.cond test whenTrue whenFalse span), h => by
    have hs := h _ rfl
    exact ⟨printable_lowerExpr st ss test (hs.of_mem_parts (.head _)),
      printable_lowerInner st _ whenTrue (hs.of_mem_parts (.tail _ (.head _))),
      printable_lowerElse st ss whenFalse fun s h =>
        hs.of_mem_parts (.tail _ (.tail _ (List.mem_map_of_mem (Option.mem_toList.mpr h))))⟩
  | some (.bind _ _ _ _), h | some (.function _ _ _ _), h | some (.assign _ _ _), h
  | some (.forOf _ _ _ _), h | some (.result _ _), h | some (.block _ _), h | some (.expr _), h
  | some (.declare _ _), h | some (.typeOnly _), h | some (.empty _), h =>
    printable_lowerInner st ([] :: ss) _ (h _ rfl)

theorem printable_lowerStmts (st : Setting) (ss : Scopes) : ∀ body : List Stmt,
    (∀ s ∈ body, s.WellFormed) → Lua.StmtsPrintable (lowerStmts st ss body)
  | [], _ => trivial
  | s :: rest, h => by
    have hrest := fun ss => printable_lowerStmts st ss rest fun t ht => h t (.tail _ ht)
    have hs := fun ss => printable_lowerInner st ss s (h s (.head _))
    refine stmtsPrintable_append ?_ (hrest _)
    split
    · exact ⟨hs _, trivial⟩
    · exact hs ss

end

end LuaSnippet.Lowering
