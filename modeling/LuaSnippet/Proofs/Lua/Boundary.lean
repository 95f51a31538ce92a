import LuaSnippet.Proofs.Lua.Grammatical
import LuaSnippet.Proofs.Lua.Scan

/-!
# Where statements of Lua end

Lua has no mark for the end of a statement: it goes on for as long as it can. So two statements that are
printed one after the other can be read as one, if the second starts with what the first can go on with.
For printed statements there is little of that (`Stmt.MayGoOn`, `Stmt.mayGoOn_of_runsInto`): a value that
ends with what can be called, and a group in parentheses behind it.
-/

namespace LuaSnippet.Lua

/-! ### Statements one after the other -/

def IsStatement (d : Dialect) (gs : List Group) : Prop :=
  Derives d .stat gs ∨ Derives d .last gs

/-- Whether a statement starts with some groups, and goes on with a token. -/
def GoesOnWith (d : Dialect) (gs : List Group) (t : Token) : Prop :=
  ∃ g hs, g.first = t ∧ IsStatement d (gs ++ g :: hs)

/-- How Lua reads groups as statements: each goes on for as long as the next token lets it. -/
inductive Reads (d : Dialect) : List Group → List (List Group) → Prop where
  | nil : Reads d [] []
  | cons {gs hs : List Group} {parts : List (List Group)} (hgs : IsStatement d gs)
      (hend : ∀ g ∈ hs.head?, ¬ GoesOnWith d gs g.first) (hhs : Reads d hs parts) :
      Reads d (gs ++ hs) (gs :: parts)

section

variable {d : Dialect} {gs hs : List Group} {parts : List (List Group)}

theorem IsStatement.ne_nil (h : IsStatement d gs) : gs ≠ [] := by
  rcases h with h | h
  · exact h.shaped.1
  · obtain ⟨s, rest, rfl⟩ := h.shaped
    exact List.cons_ne_nil _ _

theorem Reads.cases_parts (h : Reads d gs parts) : (gs = [] ∧ parts = []) ∨ ∃ xs ys rest,
    gs = xs ++ ys ∧ parts = xs :: rest ∧ IsStatement d xs ∧
      (∀ g ∈ ys.head?, ¬ GoesOnWith d xs g.first) ∧ Reads d ys rest := by
  cases h with
  | nil => exact .inl ⟨rfl, rfl⟩
  | cons hgs hend hhs => exact .inr ⟨_, _, _, rfl, rfl, hgs, hend, hhs⟩

theorem eq_nil_of_not_goesOnWith {xs ys : List Group}
    (hend : ∀ g ∈ (xs ++ ys).head?, ¬ GoesOnWith d gs g.first) (hlong : IsStatement d (gs ++ xs)) :
    xs = [] := by
  cases xs with
  | nil => rfl
  | cons x xs => exact absurd ⟨x, xs, rfl, hlong⟩ (hend x rfl)

/-- **There is one way to read groups as statements.** -/
theorem Reads.unique {parts' : List (List Group)} (h : Reads d gs parts)
    (h' : Reads d gs parts') : parts = parts' := by
  induction h generalizing parts' with
  | nil =>
    rcases h'.cases_parts with ⟨-, rfl⟩ | ⟨xs, ys, rest, heq, -, hxs, -, -⟩
    · rfl
    · exact absurd (List.append_eq_nil_iff.mp heq.symm).1 hxs.ne_nil
  | @cons gs hs parts hgs hend _ ih =>
    rcases h'.cases_parts with ⟨heq, -⟩ | ⟨xs, ys, rest, heq, rfl, hxs, hend', hys⟩
    · exact absurd (List.append_eq_nil_iff.mp heq).1 hgs.ne_nil
    -- Of the two first statements one starts with the other, so that neither is longer.
    · obtain ⟨zs, rfl, rfl⟩ | ⟨zs, rfl, rfl⟩ := List.append_eq_append_iff.mp heq
      · obtain rfl := eq_nil_of_not_goesOnWith hend hxs
        rw [List.append_nil, ih hys]
      · obtain rfl := eq_nil_of_not_goesOnWith hend' hgs
        rw [List.append_nil, ih hys]

end

/-! ### What printed statements end with and start with -/

/-- Whether what an expression ends with can be called. -/
def Expr.endsCallable : Expr → Bool
  | .name _ | .builtin _ | .call _ _ | .paren _ => true
  | .member owner key => (Expr.member owner key).numeral?.isNone
  | .unary _ operand => operand.endsCallable
  | .binary _ _ rhs => rhs.endsCallable
  | _ => false

/-- Whether an expression starts with a group in parentheses. -/
def Expr.startsGrouped : Expr → Bool
  | .paren _ => true
  | .call callee _ => callee.startsGrouped
  | .member owner _ => owner.startsGrouped
  | _ => false

def Stmt.value? : Stmt → Option Expr
  | .declare _ value | .result value => value
  | .assign _ value | .call value | .discard value => some value
  | _ => none

/-- What a statement without a keyword of its own starts with. -/
def Stmt.head? : Stmt → Option Expr
  | .assign target _ => some target
  | .call value => some value
  | _ => none

/-- Whether a printed statement can go on with what another one starts with: a value that can be called
with a group, and a bare return, or a declaration without names, with anything but a keyword. -/
def Stmt.MayGoOn (s t : Stmt) : Prop :=
  (∃ value ∈ s.value?, ∃ head ∈ t.head?, value.endsCallable = true ∧ head.startsGrouped = true) ∨
    ((s = .result none ∨ s = .declare [] none) ∧ t.head?.isSome = true)

def Stmt.spot : Stmt → Spot
  | .declare [] none => .names false
  | .declare (_ :: _) none => .named false
  | .result none => .value false
  | .declare _ (some value) | .assign _ value | .call value | .discard value
  | .result (some value) => .behind value.endsCallable false
  | .function _ _ _ | .block _ | .cond _ _ _ | .forIn _ _ _ => .done

/-- Whether a scan comes to a spot, if it comes to any. -/
def Leads (spot : Spot) (gs : List Group) (next : Spot) : Prop :=
  ∀ s ∈ scan spot gs, s = next

section

variable {spot mid next : Spot} {gs hs : List Group} {loop : Bool} (newLine : String) (depth : Nat)

theorem leads_of_scan (h : scan spot gs = some next) : Leads spot gs next := by
  intro s hs
  rw [h, Option.mem_some_iff] at hs
  exact hs.symm

theorem leads_of_stuck (h : scan spot gs = none) : Leads spot gs next := by
  intro s hs
  rw [h] at hs
  cases hs

theorem Leads.append (hgs : Leads spot gs mid) (hhs : Leads mid hs next) :
    Leads spot (gs ++ hs) next := by
  intro s hs'
  rw [scan_append] at hs'
  obtain ⟨m, hm, hs''⟩ := Option.mem_bind_iff.mp hs'
  rw [hgs m hm] at hs''
  exact hhs s hs''

theorem Leads.after {g : Group} (hgs : Leads mid gs next) (hstep : spot.step g.first = some mid) :
    Leads spot (g :: gs) next := by
  unfold Leads
  rwa [scan_cons, hstep, Option.bind_some]

theorem leads_callable {callable : Bool} (hstuck : scan (.behind false loop) gs = none)
    (hgoes : scan (.behind true loop) gs = some (.behind true loop)) :
    Leads (.behind callable loop) gs (.behind true loop) := by
  cases callable
  · exact leads_of_stuck hstuck
  · exact leads_of_scan hgoes

theorem leads_of_numeral {s : String} (hs : isNumeral s.toList = true) :
    Leads .start [.word s] next := by
  have hstarters : ∀ p ∈ Spot.starters, isNumeral p.1.toList = false := by decide
  have hlookup : Spot.starters.lookup s = none := by
    refine List.lookup_eq_none_iff.mpr fun p hp => ?_
    rw [bne_iff_ne]
    rintro rfl
    rw [hstarters p hp] at hs
    cases hs
  refine leads_of_stuck ?_
  rw [scan_word, Spot.afterWord, if_neg (by simp [isName_eq_false_of_isNumeral hs]), hlookup]
  rfl

theorem Builtin.scan_groups (b : Builtin) :
    scan .start (solidOf b.groups) = some (.behind true false) ∧
      ∀ loop, scan (.value loop) (solidOf b.groups) = some (.behind true loop) := by
  have hmember {s s' : String} (hs : isName s = true) (hs' : isName s' = true) :
      Form.prefixed.Scanned [.word s, .sign ".", .word s'] := by
    refine ⟨?_, fun loop => ?_⟩ <;> simp [hs, hs', Spot.afterSign, Spot.joints]
  cases b with
  | tableUnpack => exact hmember (by decide) (by decide)
  | bit32 op | bit op => cases op <;> exact hmember (by decide) (by decide)
  | _ => exact ⟨rfl, by decide⟩

theorem UnOp.scan_groups (op : UnOp) (loop : Bool) :
    scan (.value loop) (solidOf op.groups) = some (.value loop) := by
  cases op <;> rfl

theorem BinOp.scan_group (op : BinOp) (callable loop : Bool) :
    scan (.behind callable loop) [op.group] = some (.value loop) := by
  cases op <;> cases callable <;> cases loop <;> rfl

theorem leads_function (inside : List Group) :
    Leads (.value loop) [.block "function" inside] (.behind false loop) := by
  have hvalue : "function" ∈ Spot.valueWords := by decide
  refine leads_of_scan ?_
  rw [scan_block, Spot.afterWord_value_of_mem_valueWords hvalue]
  rfl

theorem Expr.leads_member {owner : Expr} (key : String) (he : (Expr.member owner key).Printable)
    (hnumeral : ∀ s, isNumeral s.toList = true → Leads spot [.word s] (.behind false loop))
    {callable : Bool} (howner : Leads spot (solidOf (owner.groups newLine depth)) (.behind callable loop)) :
    Leads spot (solidOf ((Expr.member owner key).groups newLine depth))
      (.behind (Expr.member owner key).endsCallable loop) := by
  rw [Expr.groups, Expr.endsCallable]
  cases htext : (Expr.member owner key).numeral? with
  | some text => exact hnumeral text (Expr.isNumeral_of_numeral? he htext).1
  | none =>
    simp only [Option.isNone_none]
    split
    · rename_i hkey
      rw [solidOf_append]
      exact howner.append (leads_callable rfl (by simp [hkey, Spot.afterSign, Spot.joints]))
    · rw [solidOf_append]
      exact howner.append (leads_callable rfl rfl)

/-- Behind a printed expression, it depends on its end what can follow. -/
theorem Expr.leads : ∀ e : Expr, e.Printable → ∀ loop,
    Leads (.value loop) (solidOf (e.groups newLine depth)) (.behind e.endsCallable loop)
  | .number text, he, loop =>
    leads_of_scan (by simp [Expr.groups, Spot.afterWord_value_numeral he.1, Expr.endsCallable])
  | .name n, he, loop => by
    have hn : isName n = true := he
    exact leads_of_scan (by simp [Expr.groups, hn, Expr.endsCallable])
  | .builtin b, _, loop => leads_of_scan (b.scan_groups.2 loop)
  | .string _, _, loop | .bool true, _, loop | .bool false, _, loop | .nil, _, loop
  | .dots, _, loop | .table _, _, loop | .paren _, _, loop => leads_of_scan (by cases loop <;> rfl)
  | .lambda _ none _, _, _ | .lambda _ (some _) _, _, _ | .function _ _, _, _ => leads_function _
  | .call callee args, he, loop => by
    rw [Expr.groups, solidOf_append]
    exact (callee.leads he.2.1 loop).append (leads_callable rfl rfl)
  | .member owner key, he, loop =>
    Expr.leads_member newLine depth key he
      (fun s hs => leads_of_scan (by simp [Spot.afterWord_value_numeral hs])) (owner.leads he.2 loop)
  | .unary op operand, he, loop => by
    rw [Expr.groups, solidOf_append]
    exact (leads_of_scan (op.scan_groups loop)).append (operand.leads he.2 loop)
  | .binary op lhs rhs, he, loop => by
    rw [Expr.groups, List.append_assoc, solidOf_binary, List.append_cons, List.append_assoc]
    exact (lhs.leads he.1 loop).append
      ((leads_of_scan (op.scan_group _ loop)).append (rhs.leads he.2 loop))

theorem Expr.leads_start : ∀ e : Expr, e.isHead = true → e.Printable →
    Leads .start (solidOf (e.groups newLine depth)) (.behind e.endsCallable false)
  | .number text, _, he => leads_of_numeral he.1
  | .name n, _, he => by
    have hn : isName n = true := he
    exact leads_of_scan (by simp [Expr.groups, hn, Expr.endsCallable])
  | .builtin b, _, _ => leads_of_scan b.scan_groups.1
  | .bool true, _, _ | .bool false, _, _ | .nil, _, _ | .dots, _, _ => leads_of_stuck rfl
  | .paren _, _, _ => leads_of_scan rfl
  | .call callee args, _, he => by
    rw [Expr.groups, solidOf_append]
    exact (callee.leads_start he.1 he.2.1).append (leads_callable rfl rfl)
  | .member owner key, _, he =>
    Expr.leads_member newLine depth key he (fun _ hs => leads_of_numeral hs) (owner.leads_start he.1 he.2)

theorem scan_names {names : List String} (hnames : ∀ n ∈ names, isName n = true) (hne : names ≠ []) :
    scan (.names loop) (solidOf (namesGroups names)) = some (.named loop) :=
  (derives_names (d := .lua53) ⟨hne, hnames⟩).scanned loop

theorem leads_names {names : List String} (hnames : ∀ n ∈ names, isName n = true)
    (hstuck : scan (.names loop) gs = none) (hgs : Leads (.named loop) gs next) :
    Leads (.names loop) (solidOf (namesGroups names) ++ gs) next := by
  cases names with
  | nil => exact leads_of_stuck hstuck
  | cons n names => exact (leads_of_scan (scan_names hnames (List.cons_ne_nil _ _))).append hgs

theorem leads_local {names : List String} (hnames : ∀ n ∈ names, isName n = true)
    (hgs : Leads (.value false) gs next) :
    Leads .start (.word "local" :: (solidOf (namesGroups names) ++ .sign "=" :: gs)) next := by
  have hequals : Leads (.named false) (.sign "=" :: gs) next := hgs.after rfl
  have hall : Leads (.names false) (solidOf (namesGroups names) ++ .sign "=" :: gs) next :=
    leads_names hnames rfl hequals
  exact hall.after rfl

theorem Stmt.leads : ∀ s : Stmt, s.Printable →
    Leads .start (solidOf (s.groups newLine depth)) s.spot
  | .declare [] none, _ => leads_of_scan rfl
  | .declare (n :: names) none, hs => by
    refine leads_of_scan ?_
    simp only [Stmt.groups, List.cons_append, List.nil_append, solidOf_word, solidOf_space]
    rw [scan_local, scan_names hs (List.cons_ne_nil _ _)]
    rfl
  | .declare names (some value), hs => by
    have hvalue := value.leads newLine depth hs.2 false
    simpa [Stmt.groups, Stmt.spot] using leads_local hs.1 hvalue
  | .discard value, hs => by
    have hvalue := value.leads newLine depth hs false
    have hname : ∀ n ∈ ["____"], isName n = true := by decide
    simpa [Stmt.groups, Stmt.spot, namesGroups, commaJoined] using leads_local hname hvalue
  | .assign target value, hs => by
    have htarget := target.leads_start newLine depth hs.1.1 hs.1.2
    have hvalue := value.leads newLine depth hs.2 false
    have hequals : Leads (.behind target.endsCallable false) [.sign "="] (.value false) :=
      leads_of_scan (by rw [scan_joint (by decide)]; rfl)
    simpa [Stmt.groups, Stmt.spot] using htarget.append (hequals.append hvalue)
  | .call value, hs => value.leads_start newLine depth hs.1 hs.2
  | .result none, _ => leads_of_scan rfl
  | .result (some value), hs =>
    (value.leads newLine depth hs false).after rfl
  | .function _ _ _, _ => by
    have hblock (inside : List Group) :
        scan (.names false) [.block "function" inside] = some .done := by
      rw [scan_block]
      rfl
    exact leads_of_scan (scan_local.trans (hblock _))
  | .block _, _ | .cond _ _ _, _ => leads_of_scan (scan_block_starter (by decide))
  | .forIn names iterator body, hs => by
    have hiterator := iterator.leads newLine depth hs.2.1 true
    have loopStart : Spot.start.step (Group.word "for").first = some (.names true) := rfl
    have hbody (inside : List Group) :
        Leads (.behind iterator.endsCallable true) [.block "do" inside] .done :=
      leads_of_scan (by rw [scan_block]; rfl)
    have hin (inside : List Group) : Leads (.named true)
        (.word "in" :: (solidOf (iterator.groups newLine depth) ++ [.block "do" inside])) .done :=
      (hiterator.append (hbody inside)).after rfl
    have hfor (inside : List Group) := (leads_names hs.1 rfl (hin inside)).after loopStart
    simpa [Stmt.groups, Stmt.spot] using hfor _

/-- Whether a token goes on neither with an expression nor with a list of names. -/
def Token.StartsAnew (t : Token) : Prop :=
  (∀ callable, (Spot.behind callable false).step t = none) ∧ (Spot.named false).step t = none

theorem startsAnew_word {s : String} (hs : s ∉ ["and", "or", "in"]) :
    (Token.word s.toList).StartsAnew := by
  simp only [List.mem_cons, List.not_mem_nil, or_false, not_or] at hs
  refine ⟨fun callable => ?_, ?_⟩
  · simp [Spot.afterWord, hs]
  · simp [Spot.afterWord, hs]

theorem startsAnew_name {s : String} (hs : isName s = true) :
    (Token.word s.toList).StartsAnew := by
  have hkeywords : ∀ w ∈ ["and", "or", "in"], w ∈ keywords := by decide
  exact startsAnew_word fun hmem => (isName_iff.mp hs).1 (hkeywords s hmem)

theorem startsAnew_numeral {s : String} (hs : isNumeral s.toList = true) :
    (Token.word s.toList).StartsAnew := by
  have hletters : ∀ w ∈ ["and", "or", "in"], isNumeral w.toList = false := by decide
  refine startsAnew_word fun hmem => ?_
  rw [hletters s hmem] at hs
  cases hs

theorem Builtin.first_groups (b : Builtin) : ∃ s rest,
    solidOf b.groups = .word s :: rest ∧ isName s = true := by
  cases b with
  | tableUnpack => exact ⟨_, _, rfl, by decide⟩
  | bit32 op | bit op => cases op <;> exact ⟨_, _, rfl, by decide⟩
  | _ => exact ⟨_, _, rfl, by decide⟩

theorem Expr.first_groups : ∀ e : Expr, e.isHead = true → e.Printable →
    ∃ g rest, solidOf (e.groups newLine depth) = g :: rest ∧
      (e.startsGrouped = true ∧ g.first = Token.sign "(".toList ∨ g.first.StartsAnew)
  | .number text, _, he => ⟨_, _, rfl, .inr (startsAnew_numeral he.1)⟩
  | .name n, _, he => ⟨_, _, rfl, .inr (startsAnew_name he)⟩
  | .builtin b, _, _ => by
    obtain ⟨s, rest, hgroups, hs⟩ := b.first_groups
    exact ⟨_, rest, hgroups, .inr (startsAnew_name hs)⟩
  | .bool true, _, _ | .bool false, _, _ | .nil, _, _ | .dots, _, _ =>
    ⟨_, _, rfl, .inr ⟨by decide, by decide⟩⟩
  | .paren _, _, _ => ⟨_, _, rfl, .inl ⟨rfl, rfl⟩⟩
  | .call callee args, _, he => by
    obtain ⟨g, rest, hgroups, hg⟩ := callee.first_groups he.1 he.2.1
    rw [Expr.groups, solidOf_append, hgroups]
    exact ⟨g, _, rfl, hg⟩
  | .member owner key, _, he => by
    obtain ⟨g, rest, hgroups, hg⟩ := owner.first_groups he.1 he.2
    rw [Expr.groups]
    split
    · rename_i text htext
      exact ⟨_, _, rfl, .inr (startsAnew_numeral (Expr.isNumeral_of_numeral? he htext).1)⟩
    · split
      · rw [solidOf_append, hgroups]
        exact ⟨g, _, rfl, hg⟩
      · rw [solidOf_append, hgroups]
        exact ⟨g, _, rfl, hg⟩

theorem Stmt.first_keyword {t : Stmt} (ht : t.head? = none) :
    ∃ keyword ∈ ["local", "return", "do", "if", "for"], ∃ g rest,
      solidOf (t.groups newLine depth) = g :: rest ∧ g.first = Token.word keyword.toList := by
  cases t with
  | assign | call => cases ht
  | declare names value => cases value <;> exact ⟨"local", by simp, _, _, rfl, rfl⟩
  | function | discard => exact ⟨"local", by simp, _, _, rfl, rfl⟩
  | result value => cases value <;> exact ⟨"return", by simp, _, _, rfl, rfl⟩
  | block => exact ⟨"do", by simp, _, _, rfl, rfl⟩
  | cond => exact ⟨"if", by simp, _, _, rfl, rfl⟩
  | forIn => exact ⟨"for", by simp, _, _, rfl, rfl⟩

theorem Stmt.step_keyword (s : Stmt) {keyword : String}
    (hkeyword : keyword ∈ ["local", "return", "do", "if", "for"]) :
    s.spot.afterWord keyword = none := by
  have hall : ∀ spot ∈ [Spot.names false, .named false, .value false, .behind true false,
      .behind false false, .done], ∀ w ∈ ["local", "return", "do", "if", "for"],
      spot.afterWord w = none := by
    decide
  refine hall s.spot ?_ keyword hkeyword
  unfold Stmt.spot
  split <;> simp

theorem Stmt.first_head {t : Stmt} (ht : t.Printable) {e : Expr} (he : t.head? = some e) :
    ∃ g rest, solidOf (t.groups newLine depth) = g :: rest ∧
      (e.startsGrouped = true ∧ g.first = Token.sign "(".toList ∨ g.first.StartsAnew) := by
  cases t with
  | assign target value =>
    obtain rfl : target = e := Option.some.inj he
    obtain ⟨g, rest, hgroups, hg⟩ := target.first_groups newLine depth ht.1.1 ht.1.2
    rw [Stmt.groups, List.append_assoc, solidOf_append, hgroups]
    exact ⟨g, _, rfl, hg⟩
  | call value =>
    obtain rfl : value = e := Option.some.inj he
    exact value.first_groups newLine depth ht.1 ht.2
  | _ => cases he

theorem Spot.step_done (t : Token) : Spot.done.step t = none := by
  unfold Spot.step
  split <;> rfl

theorem Stmt.mayGoOn_of_step {s t : Stmt} (ht : t.Printable) {g : Group}
    (hg : g ∈ (solidOf (t.groups newLine depth)).head?) (hstep : s.spot.step g.first ≠ none) :
    s.MayGoOn t := by
  cases hhead : t.head? with
  | none =>
    obtain ⟨keyword, hkeyword, g', rest, hgroups, hfirst⟩ :=
      Stmt.first_keyword newLine depth hhead
    rw [hgroups] at hg
    obtain rfl := Option.some.inj hg
    rw [hfirst, Spot.step_word, s.step_keyword hkeyword] at hstep
    exact absurd rfl hstep
  | some e =>
    obtain ⟨g', rest, hgroups, hfirst⟩ := Stmt.first_head newLine depth ht hhead
    rw [hgroups] at hg
    obtain rfl := Option.some.inj hg
    have hbare : t.head?.isSome = true := by rw [hhead]; rfl
    have hvalue : ∀ value ∈ s.value?, s.spot = .behind value.endsCallable false → s.MayGoOn t := by
      intro value hv hspot
      rw [hspot] at hstep
      rcases hfirst with ⟨hgrouped, hparen⟩ | hanew
      · cases hcallable : value.endsCallable with
        | true => exact .inl ⟨value, hv, e, hhead, hcallable, hgrouped⟩
        | false =>
          rw [hcallable, hparen] at hstep
          exact absurd (by decide) hstep
      · exact absurd (hanew.1 _) hstep
    have hnamed : (Spot.named false).step g'.first = none := by
      rcases hfirst with ⟨-, hparen⟩ | hanew
      · rw [hparen]
        decide
      · exact hanew.2
    match s with
    | .declare [] none => exact .inr ⟨.inr rfl, hbare⟩
    | .declare (_ :: _) none => exact absurd hnamed hstep
    | .result none => exact .inr ⟨.inl rfl, hbare⟩
    | .declare _ (some value) | .assign _ value | .call value | .discard value
    | .result (some value) => exact hvalue value rfl (by rw [Stmt.spot])
    | .function _ _ _ | .block _ | .cond _ _ _ | .forIn _ _ _ =>
      exact absurd (Spot.step_done _) hstep

end

section

variable {d : Dialect} {gs : List Group} (newLine : String) (depth : Nat)

theorem step_of_goesOnWith {t : Token} {next : Spot} (h : GoesOnWith d gs t)
    (hgs : Leads .start gs next) : next.step t ≠ none := by
  obtain ⟨g, hs, rfl, hstatement⟩ := h
  have hscan : (scan .start (gs ++ g :: hs)).isSome = true := by
    rcases hstatement with h | h
    · exact h.scanned
    · exact h.scanned
  intro hnone
  rw [scan_append] at hscan
  obtain ⟨last, hlast⟩ := Option.isSome_iff_exists.mp hscan
  obtain ⟨mid, hmid, hrest⟩ := Option.bind_eq_some_iff.mp hlast
  rw [hgs mid hmid, scan_cons, hnone] at hrest
  cases hrest

/-- The groups of a printed statement, without white space. -/
def Stmt.solid (newLine : String) (depth : Nat) (s : Stmt) : List Group :=
  solidOf (s.groups newLine depth)

/-- Whether a statement of the dialect goes on from a printed one into the next. -/
def Stmt.RunsInto (d : Dialect) (newLine : String) (depth : Nat) (s t : Stmt) : Prop :=
  ∃ g ∈ (t.solid newLine depth).head?, GoesOnWith d (s.solid newLine depth) g.first

/-- **No printed statement is read on into the next one**, but where it is known to be. -/
theorem Stmt.mayGoOn_of_runsInto {s t : Stmt} (hs : s.Printable) (ht : t.Printable)
    (h : s.RunsInto d newLine depth t) : s.MayGoOn t := by
  obtain ⟨g, hg, hgoes⟩ := h
  exact Stmt.mayGoOn_of_step newLine depth ht hg (step_of_goesOnWith hgoes (s.leads newLine depth hs))

theorem isChain_mayGoOn (d : Dialect) (newLine : String) (depth : Nat) : ∀ ss : List Stmt,
    StmtsPrintable ss → ss.IsChain fun s t => s.RunsInto d newLine depth t → s.MayGoOn t
  | [], _ => .nil
  | [s], _ => .singleton s
  | _ :: t :: rest, hss =>
    .cons_cons (Stmt.mayGoOn_of_runsInto newLine depth hss.1 hss.2.1)
      (isChain_mayGoOn d newLine depth (t :: rest) hss.2)

/-! ### Statements that are read on -/

theorem Expr.numeral?_of_startsGrouped : ∀ e : Expr, e.startsGrouped = true → e.numeral? = none
  | .member owner key, he => by
    have howner := owner.numeral?_of_startsGrouped he
    simp [Expr.numeral?, howner]
  | .paren _, _ | .call _ _, _ => rfl

theorem Expr.first_grouped : ∀ e : Expr, e.startsGrouped = true →
    ∃ g rest, solidOf (e.groups newLine depth) = g :: rest ∧ g.first = Token.sign "(".toList
  | .paren _, _ => ⟨_, _, rfl, rfl⟩
  | .call callee _, he => by
    obtain ⟨g, rest, hgroups, hg⟩ := callee.first_grouped he
    rw [Expr.groups, solidOf_append, hgroups]
    exact ⟨g, _, rfl, hg⟩
  | .member owner key, he => by
    obtain ⟨g, rest, hgroups, hg⟩ := owner.first_grouped he
    rw [Expr.groups, (Expr.member owner key).numeral?_of_startsGrouped he]
    simp only
    split <;> rw [solidOf_append, hgroups] <;> exact ⟨g, _, rfl, hg⟩

theorem Stmt.first_grouped {t : Stmt} {e : Expr} (he : t.head? = some e)
    (hgrouped : e.startsGrouped = true) :
    ∃ g ∈ (t.solid newLine depth).head?, g.first = Token.sign "(".toList := by
  obtain ⟨g, rest, hgroups, hg⟩ := e.first_grouped newLine depth hgrouped
  refine ⟨g, ?_, hg⟩
  cases t with
  | assign target value =>
    obtain rfl : target = e := Option.some.inj he
    rw [Stmt.solid, Stmt.groups, List.append_assoc, solidOf_append, hgroups]
    rfl
  | call value =>
    obtain rfl : value = e := Option.some.inj he
    rw [Stmt.solid, Stmt.groups, hgroups]
    rfl
  | _ => cases he

theorem Expr.derives_call {e : Expr} (he : e.Grammatical d) (hcallee : e.isPrefix = true) :
    Derives d .call (solidOf (e.groups newLine depth) ++ [.parens []]) :=
  .callOf ((e.derived newLine depth he).prefixed hcallee) .noArgs

theorem Expr.derives_called : ∀ e : Expr, e.Grammatical d → e.endsCallable = true →
    Derives d .exp (solidOf (e.groups newLine depth) ++ [.parens []])
  | .name _, he, _ | .builtin _, he, _ | .call _ _, he, _ | .member _ _, he, _ | .paren _, he, _ =>
    .prefixed (.ofCall (Expr.derives_call newLine depth he rfl))
  | .unary op operand, he, hcallable => by
    rw [Expr.groups, solidOf_append, List.append_assoc]
    exact op.derives he.1 (operand.derives_called he.2 hcallable)
  | .binary op lhs rhs, he, hcallable => by
    have hlhs := (lhs.derived newLine depth he.2.1).exp
    have hrhs := rhs.derives_called he.2.2 hcallable
    rw [Expr.groups, List.append_assoc, solidOf_binary, List.append_assoc]
    exact .binary (op.mem_binaryOperators he.1) hlhs hrhs

theorem Stmt.isStatement_called {s : Stmt} (hs : s.Grammatical d) {value : Expr}
    (hvalue : value ∈ s.value?) (hcallable : value.endsCallable = true) :
    IsStatement d (s.solid newLine depth ++ [.parens []]) := by
  match s with
  | .declare names (some v) =>
    obtain rfl : v = value := Option.some.inj hvalue
    have hcalled := v.derives_called newLine depth hs.2 hcallable
    have hlocal := Derives.localValues (derives_names hs.1) (.oneExp hcalled)
    exact .inl (by simpa [Stmt.solid, Stmt.groups] using hlocal)
  | .assign target v =>
    obtain rfl : v = value := Option.some.inj hvalue
    have htarget := (target.derived newLine depth hs.2.1).var hs.1
    have hcalled := v.derives_called newLine depth hs.2.2 hcallable
    have hassign := Derives.assign (.oneVar htarget) (.oneExp hcalled)
    exact .inl (by simpa [Stmt.solid, Stmt.groups] using hassign)
  | .call v =>
    obtain rfl : v = value := Option.some.inj hvalue
    have hcall := (v.derived newLine depth hs.2).call hs.1
    exact .inl (.callStat (.callOf (.ofCall hcall) .noArgs))
  | .discard v =>
    obtain rfl : v = value := Option.some.inj hvalue
    have hcalled := v.derives_called newLine depth hs hcallable
    have hlocal := Derives.localValues (.oneName (s := "____") (by decide)) (.oneExp hcalled)
    exact .inl (by simpa [Stmt.solid, Stmt.groups] using hlocal)
  | .result (some v) =>
    obtain rfl : v = value := Option.some.inj hvalue
    have hcalled := v.derives_called newLine depth hs hcallable
    exact .inr (.returnSome (.oneExp hcalled))

/-- A statement of Lua is read on into the next one exactly where it may be. -/
theorem Stmt.runsInto_iff {s t : Stmt} (hs : s.Grammatical d) (hresult : s.isResult = false)
    (hprintable : s.Printable) (ht : t.Printable) :
    s.RunsInto d newLine depth t ↔ s.MayGoOn t := by
  refine ⟨Stmt.mayGoOn_of_runsInto newLine depth hprintable ht, ?_⟩
  rintro (⟨value, hvalue, e, he, hcallable, hgrouped⟩ | ⟨rfl | rfl, -⟩)
  · obtain ⟨g, hg, hfirst⟩ := Stmt.first_grouped newLine depth he hgrouped
    exact ⟨g, hg, .parens [], [], hfirst.symm, Stmt.isStatement_called newLine depth hs hvalue hcallable⟩
  · cases hresult
  · exact absurd rfl hs.1

/-- The groups of some printed statements, statement by statement. -/
def solids (newLine : String) (depth : Nat) (ss : List Stmt) : List (List Group) :=
  ss.map fun s => s.solid newLine depth

theorem solidOf_stmtsGroups (ss : List Stmt) :
    solidOf (stmtsGroups newLine depth ss) = (solids newLine depth ss).flatten := by
  induction ss with
  | nil => rfl
  | cons s ss ih =>
    rw [stmtsGroups, solidOf_append, ih]
    simp [solids, Stmt.solid]

theorem Stmt.isStatement_solid {s : Stmt} (hs : s.Grammatical d) :
    IsStatement d (s.solid newLine depth) := by
  have hderives := s.derives newLine depth hs
  cases s with
  | result value => exact .inr hderives
  | _ => exact .inl hderives

theorem reads_cons_iff {xs ys : List Group} {parts : List (List Group)} :
    Reads d (xs ++ ys) (xs :: parts) ↔
      IsStatement d xs ∧ (∀ g ∈ ys.head?, ¬ GoesOnWith d xs g.first) ∧ Reads d ys parts := by
  refine ⟨fun h => ?_, fun ⟨hxs, hend, hys⟩ => .cons hxs hend hys⟩
  rcases h.cases_parts with ⟨-, hnil⟩ | ⟨xs', ys', rest, heq, hparts, hxs, hend, hys⟩
  · cases hnil
  · obtain ⟨rfl, rfl⟩ := List.cons.inj hparts
    obtain rfl := List.append_cancel_left heq
    exact ⟨hxs, hend, hys⟩

/-- **Lua reads a block of statements one by one, as they were printed, exactly when none of them may go
on with the next.** -/
theorem reads_solids_iff : ∀ ss : List Stmt, StmtsGrammatical d ss → StmtsPrintable ss →
    (Reads d (solids newLine depth ss).flatten (solids newLine depth ss) ↔
      ss.IsChain fun s t => ¬ s.MayGoOn t)
  | [], _, _ => iff_of_true .nil .nil
  | [s], hss, _ => by
    have hs := Stmt.isStatement_solid newLine depth hss.1
    exact iff_of_true (reads_cons_iff.mpr ⟨hs, by simp, .nil⟩) (.singleton s)
  | s :: t :: rest, hss, hprintable => by
    have hrest := reads_solids_iff (t :: rest) hss.2.2 hprintable.2
    have hresult : s.isResult = false := by
      rw [← Bool.not_eq_true]
      intro h
      cases hss.2.1 h
    have hstatement := Stmt.isStatement_solid newLine depth hss.1
    have hne := (Stmt.isStatement_solid newLine depth hss.2.2.1).ne_nil
    have hhead : (solids newLine depth (t :: rest)).flatten.head? =
        (t.solid newLine depth).head? := by
      obtain ⟨g, gs, hgs⟩ := List.exists_cons_of_ne_nil hne
      simp [solids, hgs]
    have hruns : (∀ g ∈ (t.solid newLine depth).head?,
        ¬ GoesOnWith d (s.solid newLine depth) g.first) ↔ ¬ s.MayGoOn t := by
      rw [← Stmt.runsInto_iff newLine depth hss.1 hresult hprintable.1
        hprintable.2.1, Stmt.RunsInto]
      simp
    rw [List.isChain_cons_cons, ← hrest, ← hruns, ← hhead]
    exact reads_cons_iff.trans (and_iff_right hstatement)

end

end LuaSnippet.Lua
