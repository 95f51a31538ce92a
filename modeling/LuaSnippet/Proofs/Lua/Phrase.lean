import LuaSnippet.Proofs.Lua.Spelling

/-!
# Phrases of Lua

The expressions, statements and blocks of a tree, and which stand within which. What stands within a
tree that can be printed can be printed (`Phrase.Printable.within`), and its numbers are numerals
(`Phrase.Printable.numbersAre`).
-/

namespace LuaSnippet.Lua

/-- A phrase of Lua: an expression, a statement or a block. -/
inductive Phrase where
  | expr (e : Expr)
  | stmt (s : Stmt)
  | block (ss : List Stmt)

def Field.value : Field → Expr
  | .item value | .entry _ value => value

/-- The parts of a conditional behind a branch. -/
def Else.parts : Else → List Phrase
  | .done => []
  | .otherwise body => [.block body]
  | .elseIf test body rest => .expr test :: .block body :: rest.parts

/-- The phrases that a phrase is put together from. -/
def Phrase.parts : Phrase → List Phrase
  | expr (.table fields) => fields.map fun f => .expr f.value
  | expr (.call callee args) => .expr callee :: args.map .expr
  | expr (.binary _ lhs rhs) => [.expr lhs, .expr rhs]
  | expr (.member e _) | expr (.paren e) | expr (.unary _ e) | expr (.lambda _ _ e) => [.expr e]
  | expr (.function _ body) => [.block body]
  | expr _ => []
  | stmt (.function _ _ body) | stmt (.block body) => [.block body]
  | stmt (.assign target value) => [.expr target, .expr value]
  | stmt (.cond test body rest) => .expr test :: .block body :: rest.parts
  | stmt (.forIn _ iterator body) => [.expr iterator, .block body]
  | stmt (.declare _ (some e)) | stmt (.call e) | stmt (.discard e) | stmt (.result (some e)) =>
    [.expr e]
  | stmt (.declare _ none) | stmt (.result none) => []
  | block ss => ss.map .stmt

/-- Whether a phrase is another one, or stands within it. -/
inductive Phrase.Within : Phrase → Phrase → Prop where
  | refl {x : Phrase} : Within x x
  | part {x y z : Phrase} (hy : y ∈ z.parts) (hx : Within x y) : Within x z

def Phrase.Printable : Phrase → Prop
  | expr e => e.Printable
  | stmt s => s.Printable
  | block ss => StmtsPrintable ss

section

variable {x y : Phrase}

theorem printable_of_mem_exprs {es : List Expr} (hes : ExprsPrintable es) :
    ∀ e ∈ es, e.Printable := by
  induction es with
  | nil => exact nofun
  | cons e es ih => exact List.forall_mem_cons.mpr ⟨hes.1, ih hes.2⟩

theorem printable_of_mem_fields {fields : List Field} (hfields : FieldsPrintable fields) :
    ∀ f ∈ fields, f.value.Printable := by
  induction fields with
  | nil => exact nofun
  | cons f fields ih =>
    refine List.forall_mem_cons.mpr ⟨?_, ih hfields.2⟩
    cases f <;> exact hfields.1

theorem printable_of_mem_stmts {ss : List Stmt} (hss : StmtsPrintable ss) :
    ∀ s ∈ ss, s.Printable := by
  induction ss with
  | nil => exact nofun
  | cons s ss ih => exact List.forall_mem_cons.mpr ⟨hss.1, ih hss.2⟩

theorem printable_of_mem_else : ∀ r : Else, r.Printable → ∀ y ∈ r.parts, y.Printable
  | .done, _ => by
    intro y hy
    cases hy
  | .otherwise _, hbody => List.forall_mem_singleton.mpr hbody
  | .elseIf _ _ rest, ⟨htest, hbody, hrest⟩ =>
    List.forall_mem_cons.mpr
      ⟨htest, List.forall_mem_cons.mpr ⟨hbody, printable_of_mem_else rest hrest⟩⟩

theorem Phrase.Printable.of_mem_parts (hx : x.Printable) : ∀ y ∈ x.parts, y.Printable := by
  match x with
  | expr (.table fields) => exact List.forall_mem_map.mpr (printable_of_mem_fields hx)
  | expr (.call _ args) =>
    exact List.forall_mem_cons.mpr
      ⟨hx.2.1, List.forall_mem_map.mpr (printable_of_mem_exprs hx.2.2)⟩
  | expr (.binary _ _ _) =>
    exact List.forall_mem_cons.mpr ⟨hx.1, List.forall_mem_singleton.mpr hx.2⟩
  | expr (.member _ _) | expr (.unary _ _) => exact List.forall_mem_singleton.mpr hx.2
  | expr (.paren _) => exact List.forall_mem_singleton.mpr hx
  | expr (.lambda _ _ _) => exact List.forall_mem_singleton.mpr hx.2.2
  | expr (.function _ _) => exact List.forall_mem_singleton.mpr hx.2
  | expr (.number _) | expr (.string _) | expr (.bool _) | expr .nil | expr (.name _)
  | expr (.builtin _) | expr .dots => exact nofun
  | stmt (.function _ _ _) => exact List.forall_mem_singleton.mpr hx.2.2
  | stmt (.block _) | stmt (.discard _) | stmt (.result (some _)) =>
    exact List.forall_mem_singleton.mpr hx
  | stmt (.assign _ _) =>
    exact List.forall_mem_cons.mpr ⟨hx.1.2, List.forall_mem_singleton.mpr hx.2⟩
  | stmt (.declare _ (some _)) | stmt (.call _) => exact List.forall_mem_singleton.mpr hx.2
  | stmt (.declare _ none) | stmt (.result none) => exact nofun
  | stmt (.cond _ _ rest) =>
    exact List.forall_mem_cons.mpr
      ⟨hx.1, List.forall_mem_cons.mpr ⟨hx.2.1, printable_of_mem_else rest hx.2.2⟩⟩
  | stmt (.forIn _ _ _) =>
    exact List.forall_mem_cons.mpr ⟨hx.2.1, List.forall_mem_singleton.mpr hx.2.2⟩
  | block ss => exact List.forall_mem_map.mpr (printable_of_mem_stmts hx)

theorem Phrase.Printable.within (hx : x.Printable) (h : y.Within x) : y.Printable := by
  induction h with
  | refl => exact hx
  | part hy _ ih => exact ih (hx.of_mem_parts _ hy)

end

/-! ### The numbers of a tree -/

def Phrase.NumbersAre (P : String → Prop) (x : Phrase) : Prop :=
  ∀ text, (Phrase.expr (.number text)).Within x → P text

section

variable {P : String → Prop} {x y : Phrase}

theorem Phrase.Printable.numbersAre (hx : x.Printable) : x.NumbersAre IsNumeral :=
  fun _ h => hx.within h

theorem Phrase.NumbersAre.of_mem_parts (hx : x.NumbersAre P) (hy : y ∈ x.parts) :
    y.NumbersAre P :=
  fun text h => hx text (.part hy h)

theorem Phrase.NumbersAre.of_number {text : String} (h : P text) :
    (Phrase.expr (.number text)).NumbersAre P := by
  intro text' hwithin
  cases hwithin with
  | refl => exact h
  | part hy _ => cases hy

theorem Phrase.NumbersAre.of_parts {ys : List Phrase} (hx : ∀ text, x ≠ .expr (.number text))
    (hparts : x.parts = ys) (hys : ∀ y ∈ ys, y.NumbersAre P) : x.NumbersAre P := by
  intro text hwithin
  cases hwithin with
  | refl => exact absurd rfl (hx text)
  | part hy h => exact hys _ (hparts ▸ hy) text h

theorem Phrase.NumbersAre.of_one (hx : ∀ text, x ≠ .expr (.number text)) (hparts : x.parts = [y])
    (hy : y.NumbersAre P) : x.NumbersAre P :=
  .of_parts hx hparts (List.forall_mem_singleton.mpr hy)

theorem Phrase.NumbersAre.imp {Q : String → Prop} (hx : x.NumbersAre P)
    (h : ∀ text, P text → Q text) : x.NumbersAre Q :=
  fun text hwithin => h text (hx text hwithin)

/-- What is printed as a numeral has the property of the numbers, if names behind a point keep it. -/
theorem Expr.of_numeral? (hP : ∀ text key, P text → isName key = true → P (text ++ "." ++ key)) :
    ∀ {e : Expr} {text : String}, (Phrase.expr e).NumbersAre P → e.numeral? = some text → P text
  | .number _, _, he, h => by
    obtain rfl := Option.some.inj h
    exact he _ .refl
  | .member owner key, _, he, h => by
    rw [Expr.numeral?] at h
    split at h
    · rename_i hkey
      obtain ⟨start, hstart, rfl⟩ := Option.map_eq_some_iff.mp h
      exact hP _ _ (Expr.of_numeral? hP (he.of_mem_parts (.head _)) hstart) hkey
    · cases h

end

end LuaSnippet.Lua
