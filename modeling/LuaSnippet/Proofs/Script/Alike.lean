import LuaSnippet.Globals.Table
import LuaSnippet.Proofs.Script.Segment
import LuaSnippet.Proofs.Script.Total

/-!
# Declarations up to comments

A type is kept as it is written, with the comments in it. Declarations are alike if they are the same
but for comments in their types that have become spaces. Pieces are alike if what they say about
declarations is; a rule that is given alike pieces makes alike pieces (`Piece.alike_make`).
-/

namespace LuaSnippet.Script

open Peg (Cursor Node Context)
open Globals (declarationOf)

/-! ### Trees -/

/-- Whether a text is another one in which some comments have become spaces. -/
def IsSpaced (text text' : String) : Prop :=
  ∃ segs, AreCut segs ∧ text.toList = written segs ∧
    text'.toList = written (segs.map Segment.spaced)

/-- Whether two parameters are the same but for comments in their types. -/
structure Param.Alike (p p' : Param) : Prop where
  name : p.name = p'.name
  isOptional : p.isOptional = p'.isOptional
  isRest : p.isRest = p'.isRest
  type : Option.Rel IsSpaced p.type? p'.type?

/-- Whether two signatures are the same but for comments in their types. -/
structure Signature.Alike (s s' : Signature) : Prop where
  name : s.name = s'.name
  params : List.Forall₂ Param.Alike s.params s'.params
  result : Option.Rel IsSpaced s.result? s'.result?

/-- Whether two declarations are the same but for comments in their types. -/
inductive Declaration.Alike : Declaration → Declaration → Prop where
  | function {s s'} (h : s.Alike s') : Alike (.function s) (.function s')
  | value {name type type'} (h : IsSpaced type type') : Alike (.value name type) (.value name type')
  | space {name members members'} (h : List.Forall₂ Alike members members') :
    Alike (.space name members) (.space name members')

theorem Declaration.Alike.name {d d' : Declaration} (h : d.Alike d') : d.name = d'.name := by
  cases h with
  | function h => exact h.name
  | value | space => rfl

/-- Whether two statements declare the same but for comments in types. -/
def Stmt.Alike (s s' : Stmt) : Prop :=
  Option.Rel Declaration.Alike (declarationOf s) (declarationOf s')

/-! ### Pieces -/

namespace Piece

/-- Whether two pieces hold the same about declarations, but for comments in types. -/
structure Alike (p p' : Piece) : Prop where
  isMark : ∀ r, p.isMark r = p'.isMark r := by exact fun _ => rfl
  name : Option.Rel (fun id id' => id.name = id'.name) p.name? p'.name? := by exact .none
  prop : Option.Rel (fun id id' => id.name = id'.name) p.prop? p'.prop? := by exact .none
  type : Option.Rel IsSpaced p.type? p'.type? := by exact .none
  result : Option.Rel IsSpaced p.result? p'.result? := by exact .none
  param : Option.Rel Param.Alike p.param? p'.param? := by exact .none
  params : Option.Rel (List.Forall₂ Param.Alike) p.params? p'.params? := by exact .none
  declaration : Option.Rel Declaration.Alike p.declaration? p'.declaration? := by exact .none
  stmt : Option.Rel Stmt.Alike p.stmt? p'.stmt? := by exact .none
  block : Option.Rel (fun b b' => List.Forall₂ Stmt.Alike b.1 b'.1) p.block? p'.block? := by
    exact .none

/-- Whether a piece holds nothing about declarations. -/
def isSilent : Piece → Bool
  | raw _ | string _ _ | kind _ | pattern _ | target _ | expr _ | sign _ _ | between _ | suffix _
  | arg _ | field _ => true
  | _ => false

variable {p p' : Piece} {parts parts' : List Piece}

theorem alike_of_isSilent (hp : p.isSilent = true) (hp' : p'.isSilent = true) : p.Alike p' := by
  have hnone : ∀ q : Piece, q.isSilent = true → (∀ r, q.isMark r = false) ∧ q.name? = none ∧
      q.prop? = none ∧ q.type? = none ∧ q.result? = none ∧ q.param? = none ∧ q.params? = none ∧
        q.declaration? = none ∧ q.stmt? = none ∧ q.block? = none := by
    intro q hq
    cases q with
    | raw | string | kind | pattern | target | expr | sign | between | suffix | arg | field =>
      exact ⟨fun _ => rfl, rfl, rfl, rfl, rfl, rfl, rfl, rfl, rfl, rfl⟩
    | _ => cases hq
  obtain ⟨h₁, h₂, h₃, h₄, h₅, h₆, h₇, h₈, h₉, h₁₀⟩ := hnone p hp
  obtain ⟨h₁', h₂', h₃', h₄', h₅', h₆', h₇', h₈', h₉', h₁₀'⟩ := hnone p' hp'
  constructor <;> simp [*]

/-! #### Several pieces -/

theorem rel_findSome? {α : Type} {R : α → α → Prop} {f : Piece → Option α}
    (hf : ∀ {p p' : Piece}, p.Alike p' → Option.Rel R (f p) (f p'))
    (h : List.Forall₂ Alike parts parts') :
    Option.Rel R (parts.findSome? f) (parts'.findSome? f) := by
  induction h with
  | nil => exact .none
  | @cons p p' ps ps' hp _ ih =>
    have hrel := hf hp
    rw [List.findSome?_cons, List.findSome?_cons]
    generalize f p = o, f p' = o' at hrel ⊢
    cases hrel with
    | some hr => exact .some hr
    | none => exact ih

theorem any_isMark (r : Rule) (h : List.Forall₂ Alike parts parts') :
    parts.any (isMark r) = parts'.any (isMark r) := by
  induction h with
  | nil => rfl
  | cons hp _ ih => rw [List.any_cons, List.any_cons, hp.isMark, ih]

theorem rel_of_findSome? {α : Type} {R : α → α → Prop} {f : Piece → Option α}
    (hf : ∀ {p p' : Piece}, p.Alike p' → Option.Rel R (f p) (f p'))
    (h : List.Forall₂ Alike parts parts') {a a' : α} (ha : parts.findSome? f = some a)
    (ha' : parts'.findSome? f = some a') : R a a' := by
  have hrel := rel_findSome? hf h
  rw [ha, ha'] at hrel
  cases hrel with
  | some hr => exact hr

theorem paramsOf_alike (h : List.Forall₂ Alike parts parts') :
    List.Forall₂ Param.Alike (paramsOf parts) (paramsOf parts') := by
  have hrel := rel_findSome? Alike.params h
  unfold paramsOf
  generalize parts.findSome? params? = o, parts'.findSome? params? = o' at hrel ⊢
  cases hrel with
  | some hps => exact hps
  | none => exact .nil

/-! #### Making pieces -/

/-- **Alike pieces within make alike pieces**, if the two nodes have the same text but for comments
that become spaces, and exactly the same if they are matched character by character. -/
theorem alike_make {r : Rule} {start stop start' stop' : Cursor} {used : List Segment}
    (hcut : AreCut used) (htext : start.textTo stop = written used)
    (htext' : start'.textTo stop' = written (used.map Segment.spaced))
    (hplain : grammar.manner r = .atomic → used.map Segment.spaced = used)
    (hparts : List.Forall₂ Alike parts parts') (h : make r start stop parts = some p)
    (h' : make r start' stop' parts' = some p') : p.Alike p' := by
  replace h' := make_eq_some_iff.mp h'
  cases make_eq_some_iff.mp h with
  | ident =>
    cases h' with
    | ident =>
      rw [hplain rfl, ← htext] at htext'
      exact { name := .some (congrArg String.ofList htext'.symm) }
    | mark hr => cases hr
  | propName =>
    cases h' with
    | propName =>
      rw [hplain rfl, ← htext] at htext'
      exact { prop := .some (congrArg String.ofList htext'.symm) }
    | mark hr => cases hr
  | type =>
    cases h' with
    | type =>
      refine { type := .some ⟨used, hcut, ?_, ?_⟩ }
      · rw [String.toList_ofList, htext]
      · rw [String.toList_ofList, htext']
    | mark hr => cases hr
  | program | block =>
    have hbody := List.rel_filterMap (fun _ _ hp => Alike.stmt hp) hparts
    cases h' with
    | mark hr => cases hr
    | _ => exact { stmt := .some .none, block := .some hbody }
  | params =>
    cases h' with
    | params => exact { params := .some (List.rel_filterMap (fun _ _ hp => hp.param) hparts) }
    | mark hr => cases hr
  | returnType ht =>
    cases h' with
    | returnType ht' => exact { result := .some (rel_of_findSome? Alike.type hparts ht ht') }
    | mark hr => cases hr
  | param hid =>
    cases h' with
    | param hid' =>
      exact { param := .some ⟨rel_of_findSome? Alike.prop hparts hid hid', any_isMark _ hparts,
        any_isMark _ hparts, rel_findSome? Alike.type hparts⟩ }
    | mark hr => cases hr
  | bareParams hid =>
    have hrel := hid ▸ rel_findSome? Alike.name hparts
    cases h' with
    | bareParams hid' =>
      cases hid' ▸ hrel with
      | some hname => exact { params := .some (.cons ⟨hname, rfl, rfl, .none⟩ .nil) }
    | arrowParams hid' => cases hid' ▸ hrel
    | mark hr => cases hr
  | arrowParams hid =>
    have hrel := hid ▸ rel_findSome? Alike.name hparts
    cases h' with
    | bareParams hid' => cases hid' ▸ hrel
    | arrowParams => exact { params := .some (paramsOf_alike hparts) }
    | mark hr => cases hr
  | fnSignature hid =>
    cases h' with
    | fnSignature hid' =>
      exact { declaration := .some (.function ⟨rel_of_findSome? Alike.prop hparts hid hid',
        paramsOf_alike hparts, rel_findSome? Alike.result hparts⟩) }
    | mark hr => cases hr
  | varSignature hid ht =>
    cases h' with
    | varSignature hid' ht' =>
      rw [rel_of_findSome? Alike.prop hparts hid hid']
      exact { declaration := .some (.value (rel_of_findSome? Alike.type hparts ht ht')) }
    | mark hr => cases hr
  | spaceDecl hid =>
    cases h' with
    | spaceDecl hid' =>
      rw [rel_of_findSome? Alike.name hparts hid hid']
      have hmembers := List.rel_filterMap (fun _ _ hp => Alike.declaration hp) hparts
      exact { declaration := .some (.space hmembers) }
    | mark hr => cases hr
  | declareStmt hd =>
    cases h' with
    | declareStmt hd' =>
      exact { stmt := .some (.some (rel_of_findSome? Alike.declaration hparts hd hd')) }
    | mark hr => cases hr
  | interfaceDecl | typeAlias | returnStmt | emptyStmt | exprStmt | functionDecl | varStmt
  | assignStmt | forOfStmt | ifStmt =>
    cases h' with
    | mark hr => cases hr
    | _ => exact { stmt := .some .none }
  | mark hr =>
    cases h' with
    | mark => exact {}
    | _ => cases hr
  | _ =>
    refine alike_of_isSilent rfl ?_
    cases h' with
    | mark hr => cases hr
    | _ => rfl

end Piece

/-! ### Nodes -/

def NodesAlike (xs xs' : List (Node Rule)) : Prop :=
  ∀ ps ps', Piece.ofNodes xs = some ps → Piece.ofNodes xs' = some ps' →
    List.Forall₂ Piece.Alike ps ps'

namespace NodesAlike

variable {xs xs' ys ys' : List (Node Rule)}

theorem nil : NodesAlike [] [] := by
  rintro _ _ ⟨⟩ ⟨⟩
  exact .nil

theorem append (hxs : NodesAlike xs xs') (hys : NodesAlike ys ys') :
    NodesAlike (xs ++ ys) (xs' ++ ys') := by
  intro ps ps' hps hps'
  obtain ⟨qs, rs, rfl, hqs, hrs⟩ := ofNodes_append hps
  obtain ⟨qs', rs', rfl, hqs', hrs'⟩ := ofNodes_append hps'
  exact List.rel_append (hxs qs qs' hqs hqs') (hys rs rs' hrs hrs')

theorem leave {ctx : Context} {r : Rule} {start stop start' stop' : Cursor}
    (hmake : ∀ {parts parts' p p'}, List.Forall₂ Piece.Alike parts parts' →
      Piece.make r start stop parts = some p → Piece.make r start' stop' parts' = some p' →
        p.Alike p') (hxs : NodesAlike xs xs') :
    NodesAlike (Peg.leave ctx r start stop xs) (Peg.leave ctx r start' stop' xs') := by
  unfold Peg.leave
  split
  · intro ps ps' hps hps'
    obtain ⟨p, hp, hmap⟩ := Option.bind_eq_some_iff.mp hps
    obtain ⟨_, hnil, rfl⟩ := Option.map_eq_some_iff.mp hmap
    obtain rfl := Option.some.inj hnil
    obtain ⟨p', hp', hmap'⟩ := Option.bind_eq_some_iff.mp hps'
    obtain ⟨_, hnil', rfl⟩ := Option.map_eq_some_iff.mp hmap'
    obtain rfl := Option.some.inj hnil'
    obtain ⟨parts, hparts, hp⟩ := Option.bind_eq_some_iff.mp hp
    obtain ⟨parts', hparts', hp'⟩ := Option.bind_eq_some_iff.mp hp'
    exact .cons (hmake (hxs parts parts' hparts hparts') hp hp') .nil
  · exact hxs

end NodesAlike

end LuaSnippet.Script
