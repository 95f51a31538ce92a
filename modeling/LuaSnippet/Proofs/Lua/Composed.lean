import LuaSnippet.Proofs.Lua.Phrase
import LuaSnippet.Proofs.Lua.Strings

/-!
# How printed Lua is composed

The groups of a printed tree are put together from few kinds of parts: words, signs, strings and
blanks, in brackets and in blocks (`Composed`). The tree is walked once, for the parts of its groups
and for the strings in them (`Expr.composed`, `Stmt.composed`). What holds of the groups of every tree
is then proved part by part: that each of its strings is a literal of its text
(`textsOf_stmtsGroups`), that brackets and blocks are balanced, and that the words which open or close
a block stand for themselves.
-/

namespace LuaSnippet.Lua

/-- The words that open or close a block. -/
@[simp] def blockWords : List String := ["function", "do", "if", "repeat", "end", "until"]

/-- The signs that open or close a bracket. -/
@[simp] def bracketSigns : List String := ["(", ")", "[", "]", "\x7b", "\x7d"]

/-- How groups are composed where a tree is printed, with the strings in them. A word is a name, a
keyword that opens and closes no block, or the numeral of an expression whose numbers have the property
`P`. -/
inductive Composed (P : String → Prop) : List String → List Group → Prop where
  | nil : Composed P [] []
  | append {ss ts : List String} {gs hs : List Group} (hgs : Composed P ss gs)
    (hhs : Composed P ts hs) : Composed P (ss ++ ts) (gs ++ hs)
  | word {s : String} (hword : isWord s = true) (hs : s ∉ blockWords) : Composed P [] [.word s]
  | numeral {e : Expr} {s : String} (he : (Phrase.expr e).NumbersAre P)
    (hs : e.numeral? = some s) : Composed P [] [.word s]
  | sign {s : String} (hs : s ∉ bracketSigns) : Composed P [] [.sign s]
  | blank (c : Char) : Composed P [] [.token (Token.blank c)]
  | text (value : String) : Composed P [value] [.token (Token.text value)]
  | index (key : String) : Composed P [key] [.index key]
  | parens {ss : List String} {gs : List Group} (h : Composed P ss gs) :
    Composed P ss [.parens gs]
  | braces {ss : List String} {gs : List Group} (h : Composed P ss gs) :
    Composed P ss [.braces gs]
  | block {ss : List String} {gs : List Group} {keyword : String}
    (hkeyword : keyword ∈ ["function", "do", "if"]) (h : Composed P ss gs) :
    Composed P ss [.block keyword gs]

/-! ### Parts of a tree -/

section

variable {P : String → Prop} {ss : List String} {g : Group} {gs hs : List Group}

namespace Composed

theorem cons (hg : Composed P [] [g]) (h : Composed P ss gs) : Composed P ss (g :: gs) :=
  hg.append h

theorem behind (h : Composed P ss gs) (hhs : Composed P [] hs) : Composed P ss (gs ++ hs) := by
  simpa using h.append hhs

theorem of_forall (h : ∀ g ∈ gs, Composed P [] [g]) : Composed P [] gs := by
  induction gs with
  | nil => exact .nil
  | cons g gs ih =>
    obtain ⟨hg, hgs⟩ := List.forall_mem_cons.mp h
    exact .cons hg (ih hgs)

theorem space : Composed P [] [.space] := .blank ' '

theorem name {s : String} (hs : isName s = true) : Composed P [] [.word s] := by
  have hkeywords : ∀ w ∈ blockWords, w ∈ keywords := by decide
  exact .word (isWord_of_isName hs) fun hmem => (isName_iff.mp hs).1 (hkeywords s hmem)

theorem blanks (s : String) : Composed P [] (blanks s) :=
  of_forall (List.forall_mem_map.mpr fun c _ => .blank c)

theorem lead {s : String} (hs : isWord s = true ∧ s ∉ blockWords) :
    Composed P [] [.word s, .space] :=
  .cons (.word hs.1 hs.2) .space

theorem equals : Composed P [] [.space, .sign "=", .space] :=
  .cons .space (.cons (.sign (by decide)) .space)

theorem comma : Composed P [] [.sign ",", .space] :=
  .cons (.sign (by decide)) .space

theorem commaJoined {gss : List (List Group)} (hgss : ∀ gs ∈ gss, Composed P [] gs) :
    Composed P [] (commaJoined gss) := by
  induction gss with
  | nil => exact .nil
  | cons gs gss ih =>
    obtain ⟨hgs, hrest⟩ := List.forall_mem_cons.mp hgss
    cases gss with
    | nil => exact hgs
    | cons gs' gss => exact (hgs.append .comma).append (ih hrest)

theorem names {names : List String} (hnames : ∀ n ∈ names, isName n = true) :
    Composed P [] (namesGroups names) :=
  commaJoined (List.forall_mem_map.mpr fun n hn => .name (hnames n hn))

theorem params {params : List Param} (hparams : ∀ p ∈ params, p.Printable) :
    Composed P [] [paramsGroup params] := by
  refine .parens (commaJoined (List.forall_mem_map.mpr fun p hp => ?_))
  cases p with
  | name n => exact .name (hparams _ hp)
  | dots => exact .sign (by decide)

/-- What stands in a block on lines of its own, behind what its first line starts with. -/
theorem lines {newLine : String} {depth : Nat} (hhs : Composed P [] hs) (h : Composed P ss gs) :
    Composed P ss (hs ++ Lua.blanks newLine ++ gs ++ Lua.blanks (indent depth)) :=
  ((hhs.append (.blanks newLine)).append h).behind (.blanks _)

theorem branch {newLine : String} {ts us : List String} {test body rest : List Group}
    (hhs : Composed P [] hs) (htest : Composed P ss test) (hbody : Composed P ts body)
    (hrest : Composed P us rest) :
    Composed P (ss ++ (ts ++ us))
      (hs ++ test ++ [.space, .word "then"] ++ Lua.blanks newLine ++ body ++ rest) := by
  have hthen : Composed P [] [.space, .word "then"] :=
    .cons .space (.word (by decide) (by decide))
  rw [← List.append_assoc ss]
  exact ((((hhs.append htest).behind hthen).behind (.blanks _)).append hbody).append hrest

theorem packed {name : String} (hname : isName name = true) :
    Composed P [] (packGroups name) :=
  .cons (.word (by decide) (by decide)) (.cons .space (.cons (.name hname) (.cons .space
    (.cons (.sign (by decide)) (.cons .space (.braces (.sign (by decide))))))))

end Composed

theorem Builtin.composed (b : Builtin) : Composed P [] b.groups := by
  have hword {s : String} (hs : isWord s = true ∧ s ∉ blockWords) : Composed P [] [.word s] :=
    .word hs.1 hs.2
  cases b with
  | bit32 op | bit op =>
    cases op <;> exact .cons (hword (by decide)) (.cons (.sign (by decide)) (hword (by decide)))
  | tableUnpack => exact .cons (hword (by decide)) (.cons (.sign (by decide)) (hword (by decide)))
  | _ => exact hword (by decide)

theorem UnOp.composed (op : UnOp) : Composed P [] op.groups := by
  cases op with
  | not => exact .lead (by decide)
  | _ => exact .sign (by decide)

theorem BinOp.composed (op : BinOp) : Composed P [] [op.group] := by
  cases op with
  | or | and => exact .word (by decide) (by decide)
  | _ => exact .sign (by decide)

theorem Expr.strings_of_numeral? : ∀ {e : Expr} {text : String}, e.numeral? = some text →
    exprStrings e = []
  | .number _, _, _ => rfl
  | .member owner key, _, h => by
    rw [Expr.numeral?] at h
    split at h
    · rename_i hkey
      obtain ⟨start, hstart, -⟩ := Option.map_eq_some_iff.mp h
      rw [exprStrings, Expr.strings_of_numeral? hstart, quotedKey, if_pos hkey]
      rfl
    · simp at h

end

/-! ### Printed trees are composed -/

section

variable {P : String → Prop} (newLine : String)

mutual

theorem Expr.composed (depth : Nat) : ∀ e : Expr, e.Printable →
    (Phrase.expr e).NumbersAre P → Composed P (exprStrings e) (e.groups newLine depth)
  | .number _, _, hnumbers => .numeral hnumbers rfl
  | .string value, _, _ => .text value
  | .bool true, _, _ | .bool false, _, _ | .nil, _, _ => .word (by decide) (by decide)
  | .name _, he, _ => .name he
  | .builtin b, _, _ => b.composed
  | .dots, _, _ => .sign (by decide)
  | .table fields, he, hnumbers =>
    .braces (composed_fieldsGroups depth fields he fun f hf =>
      hnumbers.of_mem_parts (List.mem_map_of_mem hf))
  | .call callee args, he, hnumbers => by
    have hcallee := callee.composed depth he.2.1 (hnumbers.of_mem_parts (.head _))
    have hargs := composed_exprsGroups depth args he.2.2 fun e h =>
      hnumbers.of_mem_parts (.tail _ (List.mem_map_of_mem h))
    exact hcallee.append (.parens hargs)
  | .member owner key, he, hnumbers => by
    have howner := owner.composed depth he.2 (hnumbers.of_mem_parts (.head _))
    rw [Expr.groups]
    split
    -- behind a numeral a point and a name are parts of it
    · rename_i text htext
      rw [Expr.strings_of_numeral? htext]
      exact .numeral hnumbers htext
    · rw [exprStrings, quotedKey]
      split
      · rename_i hkey
        exact howner.append (.cons (.sign (by decide)) (.name hkey))
      · exact howner.append (.index key)
  | .paren inner, he, hnumbers =>
    .parens (inner.composed depth he (hnumbers.of_mem_parts (.head _)))
  | .unary op operand, he, hnumbers =>
    op.composed.append (operand.composed depth he.2 (hnumbers.of_mem_parts (.head _)))
  | .binary op lhs rhs, he, hnumbers => by
    have hlhs := lhs.composed depth he.1 (hnumbers.of_mem_parts (.head _))
    have hrhs := rhs.composed depth he.2 (hnumbers.of_mem_parts (.tail _ (.head _)))
    exact (hlhs.behind (.cons .space (.cons op.composed .space))).append hrhs
  | .lambda params none value, he, hnumbers => by
    have hvalue := value.composed depth he.2.2 (hnumbers.of_mem_parts (.head _))
    have hreturn : Composed P [] [.space, .word "return", .space] :=
      .cons .space (.lead (by decide))
    exact .block (by decide) ((((Composed.params he.1).append hreturn).append hvalue).behind .space)
  | .lambda params (some name) value, he, hnumbers => by
    have hvalue := value.composed depth he.2.2 (hnumbers.of_mem_parts (.head _))
    have hhead : Composed P [] [paramsGroup params, .space] := .cons (.params he.1) .space
    have hreturn : Composed P [] [.sign ";", .space, .word "return", .space] :=
      .cons (.sign (by decide)) (.cons .space (.lead (by decide)))
    have hpacked := (hhead.append (.packed (he.2.1 name rfl))).append hreturn
    exact .block (by decide) ((hpacked.append hvalue).behind .space)
  | .function params body, he, hnumbers => by
    have hbody := composed_stmtsGroups (depth + 1) body he.2 (hnumbers.of_mem_parts (.head _))
    exact .block (by decide) (.lines (.params he.1) hbody)

theorem composed_exprsGroups (depth : Nat) : ∀ es : List Expr, ExprsPrintable es →
    (∀ e ∈ es, (Phrase.expr e).NumbersAre P) →
      Composed P (exprsStrings es) (commaJoined (exprsGroups newLine depth es))
  | [], _, _ => .nil
  | [e], hes, hnumbers => by
    have he := e.composed depth hes.1 (hnumbers e (.head _))
    simpa [exprsStrings, exprsGroups, commaJoined] using he
  | e :: e' :: rest, hes, hnumbers => by
    have he := e.composed depth hes.1 (hnumbers e (.head _))
    have hrest := composed_exprsGroups depth (e' :: rest) hes.2 fun e h => hnumbers e (.tail _ h)
    exact (he.behind .comma).append hrest

theorem Field.composed (depth : Nat) : ∀ f : Field, f.Printable →
    (Phrase.expr f.value).NumbersAre P → Composed P (fieldStrings f) (f.groups newLine depth)
  | .item value, hf, hnumbers => value.composed depth hf hnumbers
  | .entry key value, hf, hnumbers => by
    have hvalue := value.composed depth hf hnumbers
    rw [fieldStrings, quotedKey, Field.groups]
    split
    · rename_i hkey
      exact ((Composed.name hkey).append .equals).append hvalue
    · exact ((Composed.index key).behind .equals).append hvalue

theorem composed_fieldsGroups (depth : Nat) : ∀ fs : List Field, FieldsPrintable fs →
    (∀ f ∈ fs, (Phrase.expr f.value).NumbersAre P) →
      Composed P (fieldsStrings fs) (commaJoined (fieldsGroups newLine depth fs))
  | [], _, _ => .nil
  | [f], hfs, hnumbers => by
    have hf := f.composed depth hfs.1 (hnumbers f (.head _))
    simpa [fieldsStrings, fieldsGroups, commaJoined] using hf
  | f :: f' :: rest, hfs, hnumbers => by
    have hf := f.composed depth hfs.1 (hnumbers f (.head _))
    have hrest := composed_fieldsGroups depth (f' :: rest) hfs.2 fun f h => hnumbers f (.tail _ h)
    exact (hf.behind .comma).append hrest

theorem Stmt.composed (depth : Nat) : ∀ s : Stmt, s.Printable →
    (Phrase.stmt s).NumbersAre P → Composed P (stmtStrings s) (s.groups newLine depth)
  | .declare names none, hs, _ => by
    have hlocal : Composed P [] [.word "local", .space] := .lead (by decide)
    exact hlocal.append (.names hs)
  | .declare names (some value), hs, hnumbers => by
    have hvalue := value.composed depth hs.2 (hnumbers.of_mem_parts (.head _))
    have hlocal : Composed P [] [.word "local", .space] := .lead (by decide)
    exact ((hlocal.append (.names hs.1)).append .equals).append hvalue
  | .function name params body, hs, hnumbers => by
    have hbody := composed_stmtsGroups (depth + 1) body hs.2.2 (hnumbers.of_mem_parts (.head _))
    have hlocal : Composed P [] [.word "local", .space] := .lead (by decide)
    have hhead : Composed P [] [.space, .word name, paramsGroup params] :=
      .cons .space (.cons (.name hs.1) (.params hs.2.1))
    exact hlocal.append (.block (by decide) (.lines hhead hbody))
  | .assign target value, hs, hnumbers => by
    have htarget := target.composed depth hs.1.2 (hnumbers.of_mem_parts (.head _))
    have hvalue := value.composed depth hs.2 (hnumbers.of_mem_parts (.tail _ (.head _)))
    exact (htarget.behind .equals).append hvalue
  | .call value, hs, hnumbers => value.composed depth hs.2 (hnumbers.of_mem_parts (.head _))
  | .discard value, hs, hnumbers => by
    have hvalue := value.composed depth hs (hnumbers.of_mem_parts (.head _))
    have hlocal : Composed P [] [.word "local", .space, .word "____"] :=
      .append (.lead (by decide)) (.name (by decide))
    exact (hlocal.append .equals).append hvalue
  | .result (some value), hs, hnumbers => by
    have hvalue := value.composed depth hs (hnumbers.of_mem_parts (.head _))
    have hreturn : Composed P [] [.word "return", .space] := .lead (by decide)
    exact hreturn.append hvalue
  | .result none, _, _ => .word (by decide) (by decide)
  | .block body, hs, hnumbers => by
    have hbody := composed_stmtsGroups (depth + 1) body hs (hnumbers.of_mem_parts (.head _))
    exact .block (by decide) (.lines .nil hbody)
  | .cond test body rest, hs, hnumbers => by
    have htest := test.composed depth hs.1 (hnumbers.of_mem_parts (.head _))
    have hbody := composed_stmtsGroups (depth + 1) body hs.2.1
      (hnumbers.of_mem_parts (.tail _ (.head _)))
    have hrest := rest.composed depth hs.2.2
      fun y hy => hnumbers.of_mem_parts (.tail _ (.tail _ hy))
    exact .block (by decide) (.branch .space htest hbody hrest)
  | .forIn names iterator body, hs, hnumbers => by
    have hiterator := iterator.composed depth hs.2.1 (hnumbers.of_mem_parts (.head _))
    have hbody := composed_stmtsGroups (depth + 1) body hs.2.2
      (hnumbers.of_mem_parts (.tail _ (.head _)))
    have hfor : Composed P [] [.word "for", .space] := .lead (by decide)
    have hin : Composed P [] [.space, .word "in", .space] := .cons .space (.lead (by decide))
    have hhead := ((hfor.append (.names hs.1)).append hin).append hiterator
    exact hhead.append (.cons .space (.block (by decide) (.lines .nil hbody)))

theorem Else.composed (depth : Nat) : ∀ r : Else, r.Printable →
    (∀ y ∈ r.parts, y.NumbersAre P) → Composed P (elseStrings r) (r.groups newLine depth)
  | .done, _, _ => .blanks _
  | .otherwise body, hr, hnumbers => by
    have hbody := composed_stmtsGroups (depth + 1) body hr (hnumbers _ (.head _))
    have helse : Composed P [] [.word "else"] := .word (by decide) (by decide)
    exact .lines ((Composed.blanks _).append helse) hbody
  | .elseIf test body rest, hr, hnumbers => by
    have htest := test.composed depth hr.1 (hnumbers _ (.head _))
    have hbody := composed_stmtsGroups (depth + 1) body hr.2.1 (hnumbers _ (.tail _ (.head _)))
    have hrest := rest.composed depth hr.2.2 fun y hy => hnumbers y (.tail _ (.tail _ hy))
    exact .branch ((Composed.blanks _).append (.lead (by decide))) htest hbody hrest

/-- **Printed statements are composed, with their strings.** -/
theorem composed_stmtsGroups (depth : Nat) : ∀ ss : List Stmt, StmtsPrintable ss →
    (Phrase.block ss).NumbersAre P → Composed P (stmtsStrings ss) (stmtsGroups newLine depth ss)
  | [], _, _ => .nil
  | s :: rest, hss, hnumbers => by
    have hs := s.composed depth hss.1 (hnumbers.of_mem_parts (.head _))
    have hrest := composed_stmtsGroups depth rest hss.2
      (.of_parts nofun rfl fun y hy => hnumbers.of_mem_parts (.tail _ hy))
    exact (((Composed.blanks _).append hs).behind (.blanks _)).append hrest

end

end

/-! ### The literals of a text -/

theorem textsOf_bracket {o c : Token} (ho : o.isText = false) (hc : c.isText = false)
    (inside : List Group) : textsOf [.bracket o inside c] = textsOf inside := by
  simp [textsOf, tokensOf, Group.tokens, ho, hc]

theorem Composed.textsOf_eq {P : String → Prop} {ss : List String} {gs : List Group}
    (h : Composed P ss gs) : textsOf gs = literals ss := by
  induction h with
  | nil | word | numeral | sign | blank | text => rfl
  | append _ _ hgs hhs =>
    rw [textsOf, tokensOf_append, List.filter_append, literals, List.map_append]
    exact congrArg₂ (· ++ ·) hgs hhs
  | index key => exact textsOf_bracket rfl rfl _
  | parens _ ih | braces _ ih | block _ _ ih => exact (textsOf_bracket rfl rfl _).trans ih

/-- **The text of a tree has a string literal for each string of the tree, in order.** -/
theorem textsOf_stmtsGroups (newLine : String) (depth : Nat) {ss : List Stmt}
    (hss : StmtsPrintable ss) : textsOf (stmtsGroups newLine depth ss) = literals (stmtsStrings ss) :=
  (composed_stmtsGroups newLine depth ss hss
    (Phrase.Printable.numbersAre (x := .block ss) hss)).textsOf_eq

end LuaSnippet.Lua
