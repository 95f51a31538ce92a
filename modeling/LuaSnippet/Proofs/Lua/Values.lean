import LuaSnippet.Lua.Print

/-!
# The values of Lua expressions

An expression of Lua gives a list of values. A call gives as many as the function returns, and every
other expression gives one; a group around a call cuts its values down to the first. In a list of
expressions all but the last are cut down in the same way, and so are the items of a table.

What a call, an operator or a name comes to is left to a runtime, whose effects stand in any monad, so
that the equations here also keep the order in which things are evaluated.
-/

namespace LuaSnippet.Lua

/-- A part of a table that is being made: a value at the next place, or one under a key. -/
inductive Content (V : Type) where
  | item (value : V)
  | entry (key : String) (value : V)

def Content.value {V : Type} : Content V → V
  | item value => value
  | entry _ value => value

/-- What Lua does when it gets to a place of a program, with its values and its effects. -/
structure Runtime (M : Type → Type) (V : Type) where
  nil : V
  bool : Bool → V
  number : String → V
  string : String → V
  isTrue : V → Bool
  name : String → M V
  builtin : Builtin → M V
  /-- The further arguments of the function around. -/
  dots : M (List V)
  /-- The function that an expression makes. -/
  closure : Expr → M V
  table : List (Content V) → M V
  index : V → String → M V
  unary : UnOp → V → M V
  /-- The result of an operator that evaluates both operands. -/
  binary : BinOp → V → V → M V
  call : V → List V → M (List V)
  /-- The elements of a table, from the first on. -/
  elements : V → M (List V)

variable {M : Type → Type} {V : Type}

namespace Runtime

/-- The first of some values; there is none where a function returns nothing, which counts as nil. -/
def first (R : Runtime M V) (vs : List V) : V :=
  vs.head?.getD R.nil

/-- Some values, cut down to one. -/
def cut (R : Runtime M V) (vs : List V) : List V :=
  [R.first vs]

/-- What is kept of the values of an expression in a list: all of them if it is the last. -/
def kept (R : Runtime M V) (isLast : Bool) (vs : List V) : List V :=
  if isLast then vs else R.cut vs

/-- Whether an operator leaves out its second operand, given the first. -/
def skips (R : Runtime M V) (op : BinOp) (l : V) : Bool :=
  match op with
  | .and => !R.isTrue l
  | .or => R.isTrue l
  | _ => false

/-- The result of an operator whose second operand was not left out. -/
def operate [Monad M] (R : Runtime M V) (op : BinOp) (l r : V) : M V :=
  match op with
  | .and | .or => pure r
  | _ => R.binary op l r

end Runtime

mutual

/-- The values of an expression. -/
def exprValues [Monad M] (R : Runtime M V) : Expr → M (List V)
  | .number text => pure [R.number text]
  | .string value => pure [R.string value]
  | .bool value => pure [R.bool value]
  | .nil => pure [R.nil]
  | .name n => List.singleton <$> R.name n
  | .builtin b => List.singleton <$> R.builtin b
  | .dots => R.dots
  | .table fields => do
    let contents ← fieldsContents R fields
    List.singleton <$> R.table contents
  | .call callee args => do
    let f ← exprValues R callee
    let vs ← listValues R args
    R.call (R.first f) vs
  | .member owner key => do
    let v ← exprValues R owner
    List.singleton <$> R.index (R.first v) key
  | .paren inner => R.cut <$> exprValues R inner
  | .unary op operand => do
    let v ← exprValues R operand
    List.singleton <$> R.unary op (R.first v)
  | .binary op lhs rhs => do
    let l ← exprValues R lhs
    if R.skips op (R.first l) then
      pure (R.cut l)
    else
      let r ← exprValues R rhs
      List.singleton <$> R.operate op (R.first l) (R.first r)
  | .lambda params packed value => List.singleton <$> R.closure (.lambda params packed value)
  | .function params body => List.singleton <$> R.closure (.function params body)

/-- The values of a list of expressions. -/
def listValues [Monad M] (R : Runtime M V) : List Expr → M (List V)
  | [] => pure []
  | e :: rest => do
    let vs ← exprValues R e
    let ws ← listValues R rest
    pure (R.kept rest.isEmpty vs ++ ws)

def fieldsContents [Monad M] (R : Runtime M V) : List Field → M (List (Content V))
  | [] => pure []
  | .item e :: rest => do
    let vs ← exprValues R e
    let contents ← fieldsContents R rest
    pure ((R.kept rest.isEmpty vs).map .item ++ contents)
  | .entry key e :: rest => do
    let v ← exprValues R e
    let contents ← fieldsContents R rest
    pure (.entry key (R.first v) :: contents)

end

/-- Something that always comes to exactly one value. -/
def IsSingle [Monad M] (x : M (List V)) : Prop :=
  ∃ y : M V, x = List.singleton <$> y

@[simp]
theorem Runtime.cut_singleton (R : Runtime M V) (v : V) :
    R.cut (List.singleton v) = List.singleton v := rfl

variable [Monad M] [LawfulMonad M]

theorem isSingle_iff (R : Runtime M V) {x : M (List V)} : IsSingle x ↔ R.cut <$> x = x := by
  constructor
  · rintro ⟨y, rfl⟩
    simp
  · intro hcut
    refine ⟨R.first <$> x, ?_⟩
    rw [← comp_map]
    exact hcut.symm

theorem isSingle_cut (R : Runtime M V) (x : M (List V)) : IsSingle (R.cut <$> x) := by
  rw [isSingle_iff R, ← comp_map]
  rfl

theorem isSingle_pure (v : V) : IsSingle (pure [v] : M (List V)) := by
  refine ⟨pure v, ?_⟩
  rw [map_pure]
  rfl

theorem isSingle_bind (R : Runtime M V) {α : Type} {x : M α} {f : α → M (List V)}
    (hf : ∀ a, IsSingle (f a)) : IsSingle (x >>= f) := by
  have hcut : ∀ a, R.cut <$> f a = f a := fun a => (isSingle_iff R).mp (hf a)
  rw [isSingle_iff R, map_bind, funext hcut]

/-- Whether an expression may give more or fewer values than one. -/
def Expr.isOpen : Expr → Bool
  | .call _ _ | .dots => true
  | _ => false

theorem isSingle_exprValues (R : Runtime M V) {e : Expr} (he : e.isOpen = false) :
    IsSingle (exprValues R e) := by
  cases e with
  | call | dots => simp [Expr.isOpen] at he
  | number | string | bool | nil => exact isSingle_pure _
  | name | builtin | lambda | function => exact ⟨_, rfl⟩
  | paren inner => exact isSingle_cut R _
  | table | member | unary => exact isSingle_bind R fun _ => ⟨_, rfl⟩
  | binary op lhs rhs =>
    refine isSingle_bind R fun l => ?_
    split
    · exact isSingle_pure _
    · exact isSingle_bind R fun _ => ⟨_, rfl⟩

theorem fieldsContents_map_item (R : Runtime M V) (es : List Expr) :
    fieldsContents R (es.map .item) = List.map .item <$> listValues R es := by
  induction es with
  | nil => simp [fieldsContents, listValues]
  | cons e rest ih => simp [fieldsContents, listValues, ih]

/-- All but the last of a list of expressions give one value each, and the last all that it has. -/
theorem listValues_snoc (R : Runtime M V) (es : List Expr) (e : Expr) :
    listValues R (es ++ [e]) = (do
      let vs ← es.mapM fun e => R.first <$> exprValues R e
      let ws ← exprValues R e
      pure (vs ++ ws)) := by
  induction es with
  | nil => simp [listValues, Runtime.kept]
  | cons e' es ih => simp [listValues, Runtime.kept, Runtime.cut, ih]

/-! ### A runtime without effects -/

/-- A value that is known by a text; a table has elements, which are known by texts as well. -/
structure Datum where
  text : String
  elements : List String
deriving DecidableEq, Repr

/-- A value without elements. -/
def Datum.atom (text : String) : Datum := ⟨text, []⟩

/-- The runtime in which names stand for themselves, the functions of the libraries that give the
elements of a table do so, and every other function gives the same values at each call. -/
def Runtime.ofResults (results : String → List String) : Runtime Id Datum where
  nil := .atom "nil"
  bool b := .atom (toString b)
  number text := .atom text
  string value := .atom value
  isTrue v := v.text ≠ "nil" && v.text ≠ "false"
  name n := Datum.atom n
  builtin b := Datum.atom b.text
  dots := []
  closure _ := Datum.atom "function"
  table contents := ⟨"table", contents.map (·.value.text)⟩
  index v key := Datum.atom (v.text ++ "." ++ key)
  unary op v := Datum.atom (op.sign ++ v.text)
  binary op l r := Datum.atom (l.text ++ op.sign ++ r.text)
  call f vs :=
    if f.text = "unpack" ∨ f.text = "table.unpack" then vs.head?.elim [] (·.elements.map .atom)
    else (results f.text).map .atom
  elements v := v.elements.map .atom

end LuaSnippet.Lua
