import LuaSnippet.Proofs.Lua.Grammar

/-!
# The branches of a printed conditional

Between `if` and its `end` the words `then`, `elseif` and `else` part conditions from branches, except
where they stand in a bracket or a block of their own. Read so, a printed conditional has the conditions
and branches that it was printed from, and an else if there is one (`hasBranches_stmtsText`).
-/

namespace LuaSnippet.Lua

/-! ### Reading conditionals -/

/-- The words that part the branches of a conditional. -/
def branchWords : List String := ["then", "elseif", "else"]

/-- The word that a group is, if it parts the branches of a conditional. -/
def Group.branchWord? : Group → Option String
  | .token t => branchWords.find? fun w => t = Token.word w.toList
  | .bracket _ _ _ => none

/-- Some groups up to the first word that parts branches, and all of these words, each with the groups
behind it. -/
def segments : List Group → List Group × List (String × List Group)
  | [] => ([], [])
  | g :: gs =>
    match g.branchWord? with
    | some w => ([], (w, (segments gs).1) :: (segments gs).2)
    | none => (g :: (segments gs).1, (segments gs).2)

/-- The conditions of a conditional, each with the branch that it guards, and the branch of its else. -/
structure Conditional where
  branches : List (List Group × List Group)
  other : Option (List Group)

/-- The conditional that starts with a condition, by the segments behind it. -/
def conditionalOf? (test : List Group) : List (String × List Group) → Option Conditional
  | [("then", body)] => some ⟨[(test, body)], none⟩
  | [("then", body), ("else", other)] => some ⟨[(test, body)], some other⟩
  | ("then", body) :: ("elseif", test') :: rest =>
    (conditionalOf? test' rest).map fun c => ⟨(test, body) :: c.branches, c.other⟩
  | _ => none

def Group.conditional? : Group → Option Conditional
  | .bracket opening inside closing =>
    if opening = Token.word "if".toList ∧ closing = Token.word "end".toList then
      conditionalOf? (segments inside).1 (segments inside).2
    else none
  | .token _ => none

/-! ### Groups that part no branches -/

/-- Whether no group is a word that parts the branches of a conditional around it. -/
def Unparted (gs : List Group) : Prop := ∀ g ∈ gs, g.branchWord? = none

section

variable {gs hs : List Group}

@[simp] theorem unparted_nil : Unparted [] := List.forall_mem_nil _

@[simp] theorem unparted_cons {g : Group} :
    Unparted (g :: gs) ↔ g.branchWord? = none ∧ Unparted gs := List.forall_mem_cons

@[simp] theorem unparted_append : Unparted (gs ++ hs) ↔ Unparted gs ∧ Unparted hs :=
  List.forall_mem_append

theorem branchWord?_token {t : Token} (ht : ∀ w ∈ branchWords, t ≠ Token.word w.toList) :
    (Group.token t).branchWord? = none := by
  rw [Group.branchWord?, List.find?_eq_none]
  simpa using ht

@[simp] theorem branchWord?_word {s : String} (hs : s ∉ branchWords) :
    (Group.word s).branchWord? = none := by
  refine branchWord?_token fun w hw heq => hs ?_
  obtain rfl : s = w := String.toList_inj.mp (Token.mk.inj heq).2
  exact hw

theorem branchWord?_name {s : String} (hs : isName s = true) : (Group.word s).branchWord? = none := by
  have hkeywords : ∀ w ∈ branchWords, w ∈ keywords := by decide
  exact branchWord?_word fun hmem => (isName_iff.mp hs).1 (hkeywords s hmem)

theorem branchWord?_numeral {text : String} (htext : IsNumeral text) :
    (Group.word text).branchWord? = none := by
  have hwords : ∀ w ∈ branchWords, isNumeral w.toList = false := by decide
  refine branchWord?_word fun hmem => ?_
  exact absurd (htext.1.symm.trans (hwords text hmem)) (by simp)

@[simp] theorem branchWord?_sign (s : String) : (Group.sign s).branchWord? = none :=
  branchWord?_token fun _ _ => nofun

@[simp] theorem branchWord?_space : Group.space.branchWord? = none := by decide

@[simp] theorem branchWord?_text (value : String) :
    (Group.token (Token.text value)).branchWord? = none :=
  branchWord?_token fun _ _ => nofun

@[simp] theorem branchWord?_parens : (Group.parens gs).branchWord? = none := rfl

@[simp] theorem branchWord?_braces : (Group.braces gs).branchWord? = none := rfl

@[simp] theorem branchWord?_index (key : String) : (Group.index key).branchWord? = none := rfl

@[simp] theorem branchWord?_block (keyword : String) :
    (Group.block keyword gs).branchWord? = none := rfl

@[simp] theorem unparted_blanks (s : String) : Unparted (blanks s) :=
  List.forall_mem_map.mpr fun _ _ => branchWord?_token fun _ _ => nofun

theorem unparted_namesGroups : ∀ names : List String, (∀ n ∈ names, isName n = true) →
    Unparted (namesGroups names)
  | [], _ => unparted_nil
  | [n], h => by simpa [namesGroups, commaJoined] using branchWord?_name (h n (.head _))
  | n :: n' :: rest, h => by
    have hrest := unparted_namesGroups (n' :: rest) fun m hm => h m (.tail _ hm)
    simp only [namesGroups, List.map_cons] at hrest
    simp [namesGroups, commaJoined, branchWord?_name (h n (.head _)), hrest]

theorem Unparted.solidOf (h : Unparted gs) : Unparted (solidOf gs) := by
  induction gs with
  | nil => exact unparted_nil
  | cons g gs ih =>
    obtain ⟨hg, hgs⟩ := unparted_cons.mp h
    refine unparted_append.mpr ⟨?_, ih hgs⟩
    cases g with
    | token t =>
      rw [Group.solid]
      split
      · exact unparted_nil
      · exact unparted_cons.mpr ⟨hg, unparted_nil⟩
    | bracket => exact unparted_cons.mpr ⟨rfl, unparted_nil⟩

theorem segments_append (h : Unparted gs) :
    segments (gs ++ hs) = (gs ++ (segments hs).1, (segments hs).2) := by
  induction gs with
  | nil => rfl
  | cons g gs ih =>
    obtain ⟨hg, hgs⟩ := unparted_cons.mp h
    rw [List.cons_append, segments, hg, ih hgs]
    rfl

theorem segments_word {w : String} (hw : w ∈ branchWords) :
    segments (.word w :: gs) = ([], (w, (segments gs).1) :: (segments gs).2) := by
  have hfound : ∀ w ∈ branchWords, (Group.word w).branchWord? = some w := by decide
  rw [segments, hfound w hw]

end

/-! ### Printed trees part no branches around them -/

theorem Builtin.unparted_groups (b : Builtin) : Unparted b.groups := by
  cases b with
  | bit32 op | bit op => cases op <;> simp +decide [Builtin.groups, BitOp.name]
  | _ => simp +decide [Builtin.groups]

theorem UnOp.unparted_groups (op : UnOp) : Unparted op.groups := by
  cases op <;> simp +decide [UnOp.groups]

theorem BinOp.branchWord?_group (op : BinOp) : op.group.branchWord? = none := by
  cases op with
  | or | and => exact branchWord?_word (by decide)
  | _ => exact branchWord?_sign _

theorem Expr.unparted (newLine : String) (depth : Nat) : ∀ e : Expr, e.Printable →
    Unparted (e.groups newLine depth)
  | .number _, he => by simpa [Expr.groups] using branchWord?_numeral he
  | .name _, he => by simpa [Expr.groups] using branchWord?_name he
  | .bool true, _ | .bool false, _ | .nil, _ => by simp +decide [Expr.groups]
  | .builtin b, _ => b.unparted_groups
  | .string _, _ | .dots, _ | .table _, _ | .paren _, _ => by simp [Expr.groups]
  | .lambda _ none _, _ | .lambda _ (some _) _, _ | .function _ _, _ => by simp [Expr.groups]
  | .call callee args, he => by
    have hcallee := callee.unparted newLine depth he.2.1
    simp [Expr.groups, hcallee]
  | .member owner key, he => by
    have howner := owner.unparted newLine depth he.2
    rw [Expr.groups]
    split
    · rename_i text htext
      simpa using branchWord?_numeral (Expr.isNumeral_of_numeral? he htext)
    · split
      · rename_i hkey
        simp [howner, branchWord?_name hkey]
      · simp [howner]
  | .unary op operand, he =>
    unparted_append.mpr ⟨op.unparted_groups, operand.unparted newLine depth he.2⟩
  | .binary op lhs rhs, he => by
    have hlhs := lhs.unparted newLine depth he.1
    have hrhs := rhs.unparted newLine depth he.2
    simp [Expr.groups, hlhs, hrhs, op.branchWord?_group]

theorem Stmt.unparted (newLine : String) (depth : Nat) (s : Stmt) (hs : s.Printable) :
    Unparted (s.groups newLine depth) := by
  cases s with
  | declare names value =>
    cases value with
    | none => simp +decide [Stmt.groups, unparted_namesGroups names hs]
    | some value =>
      have hvalue := value.unparted newLine depth hs.2
      simp +decide [Stmt.groups, unparted_namesGroups names hs.1, hvalue]
  | function | block | cond => simp +decide [Stmt.groups]
  | assign target value =>
    have htarget := target.unparted newLine depth hs.1.2
    have hvalue := value.unparted newLine depth hs.2
    simp [Stmt.groups, htarget, hvalue]
  | call value => exact value.unparted newLine depth hs.2
  | discard value =>
    have hvalue := value.unparted newLine depth hs
    simp +decide [Stmt.groups, hvalue]
  | result value =>
    cases value with
    | none => simp +decide [Stmt.groups]
    | some value =>
      have hvalue := value.unparted newLine depth hs
      simp +decide [Stmt.groups, hvalue]
  | forIn names iterator body =>
    have hiterator := iterator.unparted newLine depth hs.2.1
    simp +decide [Stmt.groups, unparted_namesGroups names hs.1, hiterator]

theorem unparted_stmtsGroups (newLine : String) (depth : Nat) {ss : List Stmt}
    (hss : StmtsPrintable ss) : Unparted (stmtsGroups newLine depth ss) := by
  induction ss with
  | nil => exact unparted_nil
  | cons s rest ih =>
    have hs := s.unparted newLine depth hss.1
    simp [stmtsGroups, hs, ih hss.2]

/-! ### Printed conditionals -/

/-- The conditions behind the first one of a conditional, each with the branch that it guards. -/
def Else.branches : Else → List (Expr × List Stmt)
  | .elseIf test body rest => (test, body) :: rest.branches
  | .otherwise _ | .done => []

/-- The branch of the else that a conditional ends with, if there is one. -/
def Else.other : Else → Option (List Stmt)
  | .elseIf _ _ rest => rest.other
  | .otherwise body => some body
  | .done => none

/-- The groups of an expression, without white space. -/
def Expr.solid (newLine : String) (depth : Nat) (e : Expr) : List Group :=
  solidOf (e.groups newLine depth)

/-- The groups of the statements in a block at a depth, without white space. -/
def solidBlock (newLine : String) (depth : Nat) (ss : List Stmt) : List Group :=
  solidOf (stmtsGroups newLine (depth + 1) ss)

variable {newLine : String} {depth : Nat}

theorem segments_solidBlock {ss : List Stmt} (hss : StmtsPrintable ss) (gs : List Group) :
    segments (solidBlock newLine depth ss ++ gs) =
      (solidBlock newLine depth ss ++ (segments gs).1, (segments gs).2) :=
  segments_append (unparted_stmtsGroups newLine (depth + 1) hss).solidOf

theorem segments_solid {e : Expr} (he : e.Printable) (gs : List Group) :
    segments (e.solid newLine depth ++ gs) =
      (e.solid newLine depth ++ (segments gs).1, (segments gs).2) :=
  segments_append (e.unparted newLine depth he).solidOf

@[simp] theorem Else.solid_done : solidOf (Else.done.groups newLine depth) = [] := by
  simp [Else.groups]

@[simp] theorem Else.solid_otherwise (ss : List Stmt) :
    solidOf ((Else.otherwise ss).groups newLine depth) =
      .word "else" :: solidBlock newLine depth ss := by
  simp [Else.groups, solidBlock]

@[simp] theorem Else.solid_elseIf (test : Expr) (ss : List Stmt) (rest : Else) :
    solidOf ((Else.elseIf test ss rest).groups newLine depth) =
      .word "elseif" :: (test.solid newLine depth ++
        .word "then" :: (solidBlock newLine depth ss ++ solidOf (rest.groups newLine depth))) := by
  simp [Else.groups, Expr.solid, solidBlock]

theorem Else.segments_fst (r : Else) : (segments (solidOf (r.groups newLine depth))).1 = [] := by
  cases r with
  | done => rw [Else.solid_done, segments]
  | otherwise ss => rw [Else.solid_otherwise, segments_word (by decide)]
  | elseIf test ss rest => rw [Else.solid_elseIf, segments_word (by decide)]

theorem Else.conditionalOf?_groups (test body : List Group) {r : Else} (hr : r.Printable) :
    conditionalOf? test (("then", body) :: (segments (solidOf (r.groups newLine depth))).2) =
      some ⟨(test, body) ::
          r.branches.map (fun b => (b.1.solid newLine depth, solidBlock newLine depth b.2)),
        r.other.map (solidBlock newLine depth)⟩ := by
  induction r using Else.branches.induct generalizing test body with
  | case1 test' ss rest ih =>
    have hrest := ih (test'.solid newLine depth) (solidBlock newLine depth ss) hr.2.2
    rw [Else.solid_elseIf, segments_word (by decide), segments_solid hr.1, segments_word (by decide),
      segments_solidBlock hr.2.1, rest.segments_fst, List.append_nil, List.append_nil,
      conditionalOf?, hrest]
    rfl
  | case2 ss =>
    have hother : segments (solidBlock newLine depth ss ++ []) = _ := segments_solidBlock hr []
    rw [List.append_nil] at hother
    rw [Else.solid_otherwise, segments_word (by decide), hother]
    simp [conditionalOf?, segments, Else.branches, Else.other]
  | case3 =>
    rw [Else.solid_done]
    rfl

theorem conditional?_groups (newLine : String) (depth : Nat) {test : Expr} {body : List Stmt}
    {rest : Else} (hs : (Stmt.cond test body rest).Printable) :
    ∃ g, solidOf ((Stmt.cond test body rest).groups newLine depth) = [g] ∧
      g.conditional? = some
        ⟨((test, body) :: rest.branches).map
            (fun b => (b.1.solid newLine depth, solidBlock newLine depth b.2)),
          rest.other.map (solidBlock newLine depth)⟩ := by
  refine ⟨.block "if" (test.solid newLine depth ++ .word "then" ::
    (solidBlock newLine depth body ++ solidOf (rest.groups newLine depth))), ?_, ?_⟩
  · simp [Stmt.groups, Expr.solid, solidBlock]
  · rw [Group.block, Group.conditional?, if_pos ⟨rfl, rfl⟩, segments_solid hs.1,
      segments_word (by decide), segments_solidBlock hs.2.1, rest.segments_fst, List.append_nil,
      List.append_nil, Else.conditionalOf?_groups _ _ hs.2.2]
    rfl

/-! ### The text of a conditional -/

theorem solidGroups?_exprText (hline : IsLineEnd newLine) {e : Expr} (he : e.Printable) :
    solidGroups? (exprText newLine depth e) = some (e.solid newLine depth) := by
  have hgroups := solidGroups?_charsOf (e.legible hline depth he) (Expr.allBalanced newLine depth he)
  rwa [e.charsOf_groups, String.ofList_toList] at hgroups

theorem solidGroups?_stmtsText (hline : IsLineEnd newLine) {ss : List Stmt}
    (hss : StmtsPrintable ss) :
    solidGroups? (stmtsText newLine depth ss) = some (solidOf (stmtsGroups newLine depth ss)) := by
  have hlegible := (legible_stmtsGroups_append hline depth ss hss []).mpr legible_nil
  rw [List.append_nil] at hlegible
  have hgroups := solidGroups?_charsOf hlegible (allBalanced_stmtsGroups newLine depth hss)
  rwa [charsOf_stmtsGroups, String.ofList_toList] at hgroups

/-- Whether a text is a conditional with some texts as its conditions, each with the text of the branch
that it guards, and with the text of the branch of its else, if it has one. -/
def HasBranches (text : String) (branches : List (String × String)) (other : Option String) : Prop :=
  ∃ g c, solidGroups? text = some [g] ∧ g.conditional? = some c ∧
    List.Forall₂ (fun b gs => solidGroups? b.1 = some gs.1 ∧ solidGroups? b.2 = some gs.2)
      branches c.branches ∧
    Option.Rel (fun t gs => solidGroups? t = some gs) other c.other

theorem Else.printable_branches {r : Else} (hr : r.Printable) :
    (∀ b ∈ r.branches, b.1.Printable ∧ StmtsPrintable b.2) ∧
      ∀ ss ∈ r.other, StmtsPrintable ss := by
  induction r using Else.branches.induct with
  | case1 test body rest ih =>
    obtain ⟨hbranches, hother⟩ := ih hr.2.2
    exact ⟨List.forall_mem_cons.mpr ⟨⟨hr.1, hr.2.1⟩, hbranches⟩, hother⟩
  | case2 body =>
    refine ⟨by simp [Else.branches], fun ss hss => ?_⟩
    cases hss
    exact hr
  | case3 => simp [Else.branches, Else.other]

/-- **A printed conditional has the branches that it was printed from.** -/
theorem hasBranches_stmtsText (hline : IsLineEnd newLine) (depth : Nat) {test : Expr}
    {body : List Stmt} {rest : Else} (hs : (Stmt.cond test body rest).Printable) :
    HasBranches (stmtsText newLine depth [.cond test body rest])
      (((test, body) :: rest.branches).map fun b =>
        (exprText newLine depth b.1, stmtsText newLine (depth + 1) b.2))
      (rest.other.map (stmtsText newLine (depth + 1))) := by
  obtain ⟨g, hg, hconditional⟩ := conditional?_groups newLine depth hs
  obtain ⟨hbranches, hother⟩ := Else.printable_branches hs.2.2
  refine ⟨g, _, ?_, hconditional, ?_, ?_⟩
  · have hss : StmtsPrintable [.cond test body rest] := ⟨hs, trivial⟩
    rw [solidGroups?_stmtsText hline hss, stmtsGroups, stmtsGroups]
    simp [hg]
  · rw [List.forall₂_map_left_iff, List.forall₂_map_right_iff, List.forall₂_same]
    have hall : ∀ b ∈ (test, body) :: rest.branches, b.1.Printable ∧ StmtsPrintable b.2 :=
      List.forall_mem_cons.mpr ⟨⟨hs.1, hs.2.1⟩, hbranches⟩
    intro b hb
    exact ⟨solidGroups?_exprText hline (hall b hb).1, solidGroups?_stmtsText hline (hall b hb).2⟩
  · cases hrest : rest.other with
    | none => exact .none
    | some ss => exact .some (solidGroups?_stmtsText hline (hother ss hrest))

end LuaSnippet.Lua
