import LuaSnippet.Proofs.Peg.Order
import LuaSnippet.Proofs.Script.Nesting
import LuaSnippet.Proofs.Script.Placed

/-!
# Spans are faithful

The nodes of a match stand one behind the other within the node around them, and each of them covers
what its rule spells, which is at least one character unless the rule may match nothing. So the piece
of a node is nested where the node stands (`lies_ofNode`). In the tree of a text every span covers
something between two boundaries of the text, it contains what its phrase consists of, in order and
without overlap, and names and literals are what the text has there (`spans_faithful`).
-/

namespace LuaSnippet.Script

open Peg (Cursor Node Derives Context)
open Text (byteLength byteLength_append)

variable {text : String}

/-! ### Nodes -/

theorem covers_of_leads {start stop : Cursor} (hstart : (Cursor.start text.toList).Leads start)
    (hstop : start.Leads stop) :
    Span.Covers text ⟨start.offset, stop.offset⟩ (start.textTo stop) := by
  obtain ⟨before, hbefore, hoffset⟩ := hstart
  obtain ⟨cs, hcs, hoffset'⟩ := hstop
  rw [Peg.Cursor.textTo_eq hcs]
  have hlength : start.offset = byteLength before := by rw [hoffset, Cursor.start, Nat.zero_add]
  refine ⟨before, stop.rest, ?_, hlength, ?_⟩
  · rw [← hcs]
    exact hbefore
  · show stop.offset = byteLength (before ++ cs)
    rw [byteLength_append, hoffset', hlength]

theorem areQuotable_of_spells {quote : Char} {cs : List Char}
    (h : Peg.Spells grammar (Rule.quotedChars quote) cs) : AreQuotable quote cs := by
  cases h with
  | many css hcss =>
    induction css with
    | nil => exact .nil
    | cons ds css ih =>
      obtain ⟨hds, hothers⟩ := List.forall_mem_cons.mp hcss
      rw [List.flatten_cons]
      rcases Peg.spells_alt.mp hds with hescape | hplain
      · obtain ⟨xs, ys, rfl, hx, hy⟩ := Peg.spells_seq.mp hescape
        obtain rfl : xs = ['\\'] := Peg.spells_word.mp hx
        obtain ⟨c, rfl, -⟩ := Peg.spells_char.mp hy
        exact .escape (ih hothers)
      · obtain ⟨c, rfl, hc⟩ := Peg.spells_char.mp hplain
        simp only [ne_eq, Bool.and_eq_true, decide_eq_true_eq, Bool.not_eq_true'] at hc
        exact .plain hc.1.1 hc.1.2 hc.2 (ih hothers)

theorem spells_of_areQuotable {quote : Char} {cs : List Char} (h : AreQuotable quote cs) :
    Peg.Spells grammar (Rule.quotedChars quote) cs := by
  have hcons {xs ys : List Char} (hx : Peg.Spells grammar
        (.alt (.seq (.lit "\\") (.char fun _ => true))
          (.char fun c => c ≠ quote && c ≠ '\\' && !isLineEnd c)) xs)
      (hy : Peg.Spells grammar (Rule.quotedChars quote) ys) :
      Peg.Spells grammar (Rule.quotedChars quote) (xs ++ ys) := by
    cases hy with
    | many css hcss => exact .many (xs :: css) (List.forall_mem_cons.mpr ⟨hx, hcss⟩)
  induction h with
  | nil => exact .many [] (List.forall_mem_nil _)
  | @escape c cs _ ih => exact hcons (.left (.seq (.word ['\\']) (.char (c := c) rfl))) ih
  | @plain c cs hquote hescape hend _ ih =>
    exact hcons (.right (.char (c := c) (by simp [hquote, hescape, hend]))) ih

theorem spells_stringLit_iff {cs : List Char} : Peg.Spells grammar (grammar.body .stringLit) cs ↔
    ∃ quote body, (quote = '"' ∨ quote = '\'') ∧ AreQuotable quote body ∧
      cs = quote :: (body ++ [quote]) := by
  have hspells (q : Char) (r : Rule) (hr : grammar.body r = Rule.quotedChars q) :
      Peg.Spells grammar (.inOrder (.word [q]) [.call r, .word [q]]) cs ↔
        ∃ body, AreQuotable q body ∧ cs = q :: (body ++ [q]) := by
    have hchars {body : List Char} :
        Peg.Spells grammar (Rule.quotedChars q) body ↔ AreQuotable q body :=
      ⟨areQuotable_of_spells, spells_of_areQuotable⟩
    simp only [Peg.Pattern.inOrder, Peg.spells_seq, Peg.spells_word, Peg.spells_call, hr, hchars]
    constructor
    · rintro ⟨_, _, rfl, rfl, body, _, rfl, hbody, rfl⟩
      exact ⟨body, hbody, rfl⟩
    · rintro ⟨body, hbody, rfl⟩
      exact ⟨[q], body ++ [q], rfl, rfl, body, [q], rfl, hbody, rfl⟩
  have hbody : grammar.body .stringLit =
      .alt (.inOrder (.word ['"']) [.call .doubleQuoted, .word ['"']])
        (.inOrder (.word ['\'']) [.call .singleQuoted, .word ['\'']]) := rfl
  rw [hbody, Peg.spells_alt, hspells '"' .doubleQuoted rfl, hspells '\'' .singleQuoted rfl]
  constructor
  · rintro (⟨body, hbody, rfl⟩ | ⟨body, hbody, rfl⟩)
    · exact ⟨'"', body, .inl rfl, hbody, rfl⟩
    · exact ⟨'\'', body, .inr rfl, hbody, rfl⟩
  · rintro ⟨quote, body, rfl | rfl, hbody, rfl⟩
    · exact .inl ⟨body, hbody, rfl⟩
    · exact .inr ⟨body, hbody, rfl⟩

theorem quoted_of_derives {ctx : Context} {quote : Char} {r : Rule} {start stop : Cursor}
    {xs : List (Node Rule)} (hctx : ctx.atomicity = .compound) (hnode : ctx.makesNodes = true)
    (hmanner : grammar.manner r = .atomic) (hbody : grammar.body r = Rule.quotedChars quote)
    (h : Derives grammar ctx (.inOrder (.word [quote]) [.call r, .word [quote]]) start xs stop) :
    ∃ from' to' ys, xs = [.mk r from' to' ys] ∧ AreQuotable quote (from'.textTo to') ∧
      start.textTo stop = quote :: (from'.textTo to' ++ [quote]) := by
  have hpass : ∀ cur, grammar.pass ctx cur = cur :=
    Peg.pass_of_ne_spaced (by rw [hctx]; exact Peg.Atomicity.noConfusion)
  cases h with
  | @seq _ _ _ _ from' _ _ _ hopen hrest =>
    cases hopen with
    | word hopen =>
      cases hrest with
      | @seq _ _ _ _ to' _ _ _ hcall hclose =>
        cases hclose with
        | word hclose =>
          rw [hpass] at hcall hclose
          cases hcall with
          | silent hsilent => rw [hmanner] at hsilent; cases hsilent
          | @call _ _ _ _ ys _ hraw =>
            have hspells : ∃ cs, from'.rest = cs ++ to'.rest ∧
                Peg.Spells grammar (grammar.body r) cs := by
              apply hraw.spells
              rw [hmanner]
              exact Peg.Atomicity.noConfusion
            obtain ⟨cs, hcs, hspells⟩ := hspells
            rw [hbody] at hspells
            refine ⟨from', to', ys, ?_, ?_, ?_⟩
            · rw [hmanner, Peg.leave, Context.outer, if_pos hnode]
              rfl
            · rw [Peg.Cursor.textTo_eq hcs]
              exact areQuotable_of_spells hspells
            · rw [Peg.Cursor.textTo_eq hcs]
              apply Peg.Cursor.textTo_eq
              rw [Peg.rest_of_take? hopen, hcs, Peg.rest_of_take? hclose]
              simp

theorem raw_of_ofNodes {r : Rule} (hr : r = .doubleQuoted ∨ r = .singleQuoted)
    {start stop : Cursor} {xs : List (Node Rule)} {parts : List Piece}
    (h : Piece.ofNodes [.mk r start stop xs] = some parts) :
    parts.findSome? Piece.raw? = some (start.textTo stop) := by
  obtain ⟨p, hp, hmap⟩ := Option.bind_eq_some_iff.mp h
  obtain ⟨_, hnil, rfl⟩ := Option.map_eq_some_iff.mp hmap
  obtain rfl := Option.some.inj hnil
  obtain ⟨_, -, hmake⟩ := Option.bind_eq_some_iff.mp hp
  rcases hr with rfl | rfl
  · obtain rfl := Option.some.inj hmake
    rfl
  · obtain rfl := Option.some.inj hmake
    rfl

theorem stringLit_of_derives {ctx : Context} {start stop : Cursor} {xs : List (Node Rule)}
    (hnode : (ctx.outer (grammar.manner .stringLit)).makesNodes = true)
    (h : Derives grammar (ctx.inner (grammar.manner .stringLit)) (grammar.body .stringLit) start xs
      stop) {parts : List Piece} (hparts : Piece.ofNodes xs = some parts) {raw : List Char}
    (hraw : parts.findSome? Piece.raw? = some raw) :
    ∃ quote, (quote = '"' ∨ quote = '\'') ∧ AreQuotable quote raw ∧
      start.textTo stop = quote :: (raw ++ [quote]) := by
  cases h with
  | left h =>
    obtain ⟨from', to', ys, rfl, hquotable, htext⟩ :=
      quoted_of_derives (r := .doubleQuoted) rfl hnode rfl rfl h
    obtain rfl := Option.some.inj ((raw_of_ofNodes (.inl rfl) hparts).symm.trans hraw)
    exact ⟨'"', .inl rfl, hquotable, htext⟩
  | right h =>
    obtain ⟨from', to', ys, rfl, hquotable, htext⟩ :=
      quoted_of_derives (r := .singleQuoted) rfl hnode rfl rfl h
    obtain rfl := Option.some.inj ((raw_of_ofNodes (.inr rfl) hparts).symm.trans hraw)
    exact ⟨'\'', .inr rfl, hquotable, htext⟩

theorem program_notMem_calls (r : Rule) : Rule.program ∉ (grammar.body r).calls := by
  cases r with
  | keyword | binaryOp => exact List.not_mem_nil
  | unaryOp op => cases op <;> decide
  | _ => decide

theorem ne_program_of_derives {ctx : Context} {r : Rule} {start stop : Cursor}
    {xs : List (Node Rule)} (h : Derives grammar ctx (grammar.body r) start xs stop) :
    ∀ x ∈ xs, x.rule ≠ .program := by
  intro x hx heq
  rcases h.mem_calls x hx with hr | ⟨r', hr⟩
  · rw [heq] at hr
    exact program_notMem_calls r hr
  · rw [heq] at hr
    exact program_notMem_calls r' hr

theorem isOf_ofNodes {xs : List (Node Rule)} {ps : List Piece} (h : Piece.ofNodes xs = some ps) :
    List.Forall₂ Piece.IsOf (xs.map Node.rule) ps := by
  induction xs generalizing ps with
  | nil =>
    obtain rfl := Option.some.inj h
    exact .nil
  | cons x xs ih =>
    obtain ⟨p, hp, hmap⟩ := Option.bind_eq_some_iff.mp h
    obtain ⟨qs, hqs, rfl⟩ := Option.map_eq_some_iff.mp hmap
    obtain ⟨r, start, stop, children⟩ := x
    obtain ⟨parts, -, hmake⟩ := Option.bind_eq_some_iff.mp hp
    exact .cons (Piece.isOf_make hmake) (ih hqs)

mutual

theorem lies_ofNode : ∀ (x : Node Rule), x.IsDerived grammar →
    x.Ahead (Cursor.start text.toList) → x.rule ≠ .program → ∀ p, Piece.ofNode x = some p →
      p.LiesIn text x.start.offset x.stop.offset
  | .mk r start stop xs, hx, hahead, hprogram, p, h => by
    obtain ⟨parts, hparts, hmake⟩ := Option.bind_eq_some_iff.mp h
    have hfits := fits_of_derived hx
    cases hahead with
    | mk hstart hstop haheads =>
      cases hx with
      | @mk ctx _ _ _ _ hnode hbody hwithin =>
        have hpieces : InRow (Piece.LiesIn text) start.offset parts stop.offset := by
          exact lies_ofNodes xs hwithin haheads (ne_program_of_derives hbody)
            (hbody.inRow skipsAhead_grammar) parts hparts
        refine Piece.lies_make hprogram (isOf_ofNodes hparts) hfits hpieces (fun hr => ?_)
          (covers_of_leads hstart hstop) (fun hr raw hraw => ?_) hmake
        · apply ranked_grammar.offset_lt hbody
          apply Bool.eq_false_iff.mpr
          intro hnull
          exact absurd (ranked_grammar.nullable r hnull) (Bool.eq_false_iff.mp hr)
        · subst hr
          obtain ⟨quote, hquote, hquotable, htext⟩ := stringLit_of_derives hnode hbody hparts hraw
          refine ⟨quote, hquote, hquotable, ?_⟩
          rw [← htext]
          exact covers_of_leads hstart hstop

theorem lies_ofNodes : ∀ (xs : List (Node Rule)), (∀ x ∈ xs, x.IsDerived grammar) →
    (∀ x ∈ xs, x.Ahead (Cursor.start text.toList)) → (∀ x ∈ xs, x.rule ≠ .program) →
      ∀ {lo hi : Nat}, InRow Node.StandsAt lo xs hi → ∀ ps, Piece.ofNodes xs = some ps →
        InRow (Piece.LiesIn text) lo ps hi
  | [], _, _, _, _, _, hrow, ps, h => by
    obtain rfl := Option.some.inj h
    exact .nil hrow.le
  | x :: xs, hxs, hahead, hprogram, _, _, hrow, ps, h => by
    obtain ⟨p, hp, hmap⟩ := Option.bind_eq_some_iff.mp h
    obtain ⟨qs, hqs, rfl⟩ := Option.map_eq_some_iff.mp hmap
    obtain ⟨hx, hxs⟩ := List.forall_mem_cons.mp hxs
    obtain ⟨hxahead, hahead⟩ := List.forall_mem_cons.mp hahead
    obtain ⟨hxprogram, hprogram⟩ := List.forall_mem_cons.mp hprogram
    cases hrow with
    | cons hlo hab hstands hrest =>
      obtain ⟨rfl, rfl⟩ := hstands
      exact .cons hlo hab (lies_ofNode x hx hxahead hxprogram p hp)
        (lies_ofNodes xs hxs hahead hprogram hrest qs hqs)

end

/-! ### Trees -/

/-- Whether a span of a text is not empty, and starts and ends between two characters. -/
structure Span.IsIn (text : String) (s : Span) : Prop where
  nonempty : s.start < s.stop
  placed : s.IsPlaced (Text.IsBoundary text)

/-- Whether the span of a phrase is one of the text and contains the spans of all that the phrase
consists of, in order and without overlap, and the names and literals of the phrase itself are what
the text has there. -/
structure Phrase.IsFaithful (text : String) (x : Phrase) : Prop where
  span : x.span.IsIn text
  inner : ∀ s ∈ x.inner, s.IsIn text ∧ x.span.start ≤ s.start ∧ s.stop ≤ x.span.stop
  order : x.inner.Pairwise fun s t => s.stop ≤ t.start
  spelled : x.IsSpelled text

namespace Phrase

variable {x : Phrase} {P : Nat → Prop}

theorem Placed.span (h : x.Placed P) : x.span.IsPlaced P := by
  cases x with
  | expr e => exact isPlaced_span h
  | stmt s =>
    cases s with
    | expr e => exact isPlaced_span (h.of_mem_parts List.mem_cons_self)
    | function => exact h.of_mem_spans (List.mem_cons_of_mem _ List.mem_cons_self)
    | _ => exact h.of_mem_spans List.mem_cons_self

theorem Placed.name (h : x.Placed P) {id : Ident} (hid : id ∈ x.names) : id.span.IsPlaced P := by
  apply h.of_mem_spans
  unfold names at hid
  split at hid
  · rw [List.mem_singleton.mp hid]
    exact List.mem_cons_self
  · rw [List.mem_singleton.mp hid]
    exact List.mem_cons_self
  · rw [List.mem_singleton.mp hid]
    exact List.mem_cons_self
  · exact List.mem_cons_of_mem _ (List.mem_map_of_mem hid)
  · exact List.mem_cons_of_mem _ (List.mem_map_of_mem hid)
  · exact absurd hid List.not_mem_nil

theorem Placed.inner (h : x.Placed P) : ∀ s ∈ x.inner, s.IsPlaced P := by
  have hnames : ∀ id ∈ x.names, id.span.IsPlaced P := fun id hid => h.name hid
  have hparts : ∀ y ∈ x.parts, y.span.IsPlaced P := fun y hy => (h.of_mem_parts hy).span
  unfold Phrase.inner
  split
  · intro s hs
    rcases List.mem_cons.mp hs with rfl | hs
    · exact hparts _ List.mem_cons_self
    · rw [List.mem_singleton.mp hs]
      exact hnames _ List.mem_cons_self
  · exact List.forall_mem_append.mpr
      ⟨List.forall_mem_map.mpr hnames, List.forall_mem_map.mpr hparts⟩

theorem Nested.isFaithful (h : x.Nested text) (hplaced : x.Placed (Text.IsBoundary text)) :
    x.IsFaithful text := by
  cases h with
  | mk hspan hinner hspelled _ =>
    refine ⟨⟨hspan, hplaced.span⟩, fun s hs => ?_, Span.pairwise_of_inRow hinner, hspelled⟩
    obtain ⟨a, b, ha, hb, hlies⟩ := hinner.exists_of_mem hs
    exact ⟨⟨hlies.nonempty, hplaced.inner s hs⟩, Nat.le_trans ha hlies.from_start,
      Nat.le_trans hlies.to_stop hb⟩

theorem Placed.of_within {y : Phrase} (hx : x.Placed P) (h : y.Within x) : y.Placed P := by
  induction h with
  | refl => exact hx
  | part hz _ ih => exact ih (hx.of_mem_parts hz)

end Phrase

theorem inRow_of_read {body : List Stmt} (h : read text = .ok body) :
    ∃ lo hi, InRow (Stmt.LiesIn text) lo body hi := by
  obtain ⟨nodes, stop, log, span, hmatched, hpieces⟩ := parse_of_read h
  obtain ⟨⟨r, start, stop, children⟩, rfl, hprogram, hderived⟩ := eq_program_of_parse hmatched
  obtain rfl : r = .program := hprogram
  have hahead := (Peg.Grammar.derives_of_run hmatched).ahead skipsAhead_grammar _ List.mem_cons_self
  obtain ⟨p, hp, hmap⟩ := Option.bind_eq_some_iff.mp hpieces
  obtain ⟨_, -, hcons⟩ := Option.map_eq_some_iff.mp hmap
  obtain ⟨rfl, -⟩ := List.cons.inj hcons
  obtain ⟨parts, hparts, hmake⟩ := Option.bind_eq_some_iff.mp hp
  obtain ⟨rfl, -⟩ : parts.filterMap Piece.stmt? = body ∧ _ := by
    simpa [Piece.make] using hmake
  cases hahead with
  | mk hstart hstop haheads =>
    cases hderived with
    | mk _ hbody hwithin =>
      have hpieces := lies_ofNodes children hwithin haheads (ne_program_of_derives hbody)
        (hbody.inRow skipsAhead_grammar) parts hparts
      exact ⟨_, _, Piece.lies_statements hpieces⟩

/-- **The spans of a tree are faithful to its text.** Every span in it covers at least one character
between boundaries of the text. What a phrase consists of stands within the phrase, in the order of
the text and without overlap, and so do the statements of the text. The names, numbers and strings are
what the text has there. -/
theorem spans_faithful {body : List Stmt} (h : read text = .ok body) :
    (body.map fun s => (Phrase.stmt s).span).Pairwise (fun s t => s.stop ≤ t.start) ∧
      ∀ s ∈ body, ∀ x : Phrase, x.Within (.stmt s) → x.IsFaithful text := by
  obtain ⟨lo, hi, hrow⟩ := inRow_of_read h
  refine ⟨Span.pairwise_of_inRow (hrow.map fun _ _ _ hs => hs.span), fun s hs x hx => ?_⟩
  obtain ⟨a, b, -, -, hlies⟩ := hrow.exists_of_mem hs
  exact (hlies.nested.of_within hx).isFaithful ((placed_of_read h s hs).of_within hx)

/-- A sentence with a call that a non-null mark follows, and with strings that hold quotes. -/
theorem markedText_spans_faithful :
    let text := "const x = -f('it\\'s', 1.5)! + \"é\".length;\n\nx.y = x;"
    (read text).isOk = true ∧ ∃ body, read text = .ok body ∧
      (body.map fun s => (Phrase.stmt s).span).Pairwise (fun s t => s.stop ≤ t.start) ∧
        ∀ s ∈ body, ∀ x : Phrase, x.Within (.stmt s) → x.IsFaithful text := by
  intro text
  have hok : (read text).isOk = true := by decide +kernel
  cases h : read text with
  | error r =>
    rw [h] at hok
    cases hok
  | ok body => exact ⟨rfl, body, rfl, spans_faithful h⟩

end LuaSnippet.Script
