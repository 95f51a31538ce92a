import LuaSnippet.Proofs.Script.Placed
import LuaSnippet.Proofs.Lowering.Lacking
import LuaSnippet.Inspect.Walk

/-!
# Where reports point to

The inspection and the lowering report what they find at an offset: that of a name, of a property, of
the start of a call, an argument or an operation. All of these stand in the tree that is walked, so what
holds of the offsets in a tree holds of those of all reports about it.
-/

namespace LuaSnippet

open Script (Expr Arg Field Stmt Ident Phrase)
open Globals (Table)

variable {P : Nat → Prop}

namespace Inspect

/-- Whether the offsets of some findings have a property. -/
abbrev ArePlaced (P : Nat → Prop) (fs : List Finding) : Prop := ∀ f ∈ fs, P f.offset

/-! ### Findings of one place -/

theorem arePlaced_name (t : Table) (ss : Scopes) {id : Ident} (hid : id.span.IsPlaced P) :
    ArePlaced P (nameFindings t ss id) := by
  unfold nameFindings
  split
  · exact List.forall_mem_nil _
  · exact List.forall_mem_singleton.mpr hid.1

theorem arePlaced_member (t : Table) (ss : Scopes) (owner : Expr) {property : Ident}
    (hproperty : property.span.IsPlaced P) : ArePlaced P (memberFindings t ss owner property) := by
  unfold memberFindings
  split
  · split
    · exact List.forall_mem_nil _
    · split
      · split
        · exact List.forall_mem_nil _
        · exact List.forall_mem_singleton.mpr hproperty.1
      · exact List.forall_mem_nil _
  · exact List.forall_mem_nil _

theorem arePlaced_call (t : Table) (ss : Scopes) (callee : Expr) {args : List Arg} {offset : Nat}
    (hargs : ∀ a ∈ args, a.value.Placed P) (hoffset : P offset) :
    ArePlaced P (callFindings t ss callee args offset) := by
  unfold callFindings
  split
  · exact List.forall_mem_nil _
  · split
    · exact List.forall_mem_nil _
    · exact List.forall_mem_singleton.mpr hoffset
    · split
      · rename_i a ha
        have hvalue := Script.isPlaced_span (hargs a (List.mem_of_getElem? ha))
        exact List.forall_mem_singleton.mpr hvalue.1
      · exact List.forall_mem_nil _
    · exact List.forall_mem_singleton.mpr hoffset

theorem arePlaced_declareAll (blockScoped : Bool) {ids : List Ident}
    (hids : ∀ id ∈ ids, id.span.IsPlaced P) (ss : Scopes) :
    ArePlaced P (ss.declareAll blockScoped ids).1 := by
  induction ids generalizing ss with
  | nil => exact List.forall_mem_nil _
  | cons id ids ih =>
    obtain ⟨hid, hrest⟩ := List.forall_mem_cons.mp hids
    refine List.forall_mem_append.mpr ⟨?_, ih hrest _⟩
    unfold Scopes.declare
    split
    · exact List.forall_mem_nil _
    · split
      · exact List.forall_mem_nil _
      · split
        · exact List.forall_mem_singleton.mpr hid.1
        · exact List.forall_mem_nil _

theorem arePlaced_openScope (ss : Scopes) (s : Scope) {body : List Stmt}
    (hbody : ∀ x ∈ body, x.Placed P) : ArePlaced P (openScope ss s body).1 := by
  apply arePlaced_declareAll
  intro id hid
  obtain ⟨x, hx, hname⟩ := List.mem_filterMap.mp hid
  cases x with
  | function name =>
    obtain rfl := Option.some.inj hname
    exact (hbody _ hx).of_mem_spans List.mem_cons_self
  | _ => cases hname

theorem placed_body {body : List Stmt} {span : Script.Span} (h : (Stmt.block body span).Placed P) :
    ∀ s ∈ body, s.Placed P := by
  intro s hs
  exact h.of_mem_parts (List.mem_map_of_mem hs)

theorem arePlaced_openBlock (ss : Scopes) {s : Stmt} (hs : s.Placed P) :
    ArePlaced P (openBlock ss s).1 := by
  cases s with
  | block body span => exact arePlaced_openScope _ _ (placed_body hs)
  | _ => exact List.forall_mem_nil _

theorem placed_branchBody {s : Stmt} (hs : s.Placed P) : ∀ x ∈ branchBody s, x.Placed P := by
  cases s with
  | block body span => exact placed_body hs
  | _ => exact List.forall_mem_singleton.mpr hs

/-! ### Findings of a tree -/

mutual

theorem arePlaced_expr (t : Table) (ss : Scopes) : ∀ e : Expr, e.Placed P →
    ArePlaced P (exprFindings t ss e)
  | .number _ _, _ | .string _ _, _ | .bool _ _, _ | .absent _, _ => List.forall_mem_nil _
  | .ident _, h => arePlaced_name t ss (h.of_mem_spans List.mem_cons_self)
  | .array elements _, h =>
    arePlaced_args t ss elements fun _ ha => h.of_mem_parts (List.mem_map_of_mem ha)
  | .object fields _, h =>
    arePlaced_fields t ss fields fun _ hf => h.of_mem_parts (List.mem_map_of_mem hf)
  | .call callee args span, h => by
    have hcallee : callee.Placed P := h.of_mem_parts List.mem_cons_self
    have hargs : ∀ a ∈ args, a.value.Placed P :=
      fun a ha => h.of_mem_parts (List.mem_cons_of_mem _ (List.mem_map_of_mem ha))
    have hspan : span.IsPlaced P := h.of_mem_spans List.mem_cons_self
    refine List.forall_mem_append.mpr ⟨List.forall_mem_append.mpr ⟨?_, ?_⟩, ?_⟩
    · exact arePlaced_expr t ss callee hcallee
    · exact arePlaced_args t ss args hargs
    · exact arePlaced_call t ss callee hargs hspan.1
  | .member owner property, h => by
    refine List.forall_mem_append.mpr ⟨?_, ?_⟩
    · exact arePlaced_expr t ss owner (h.of_mem_parts List.mem_cons_self)
    · exact arePlaced_member t ss owner (h.of_mem_spans List.mem_cons_self)
  | .nonNull inner, h | .paren inner _, h | .unary _ inner _, h =>
    arePlaced_expr t ss inner (h.of_mem_parts List.mem_cons_self)
  | .binary _ lhs rhs, h => by
    obtain ⟨hlhs, hrhs⟩ := Script.placed_binary.mp h
    exact List.forall_mem_append.mpr
      ⟨arePlaced_expr t ss lhs hlhs, arePlaced_expr t ss rhs hrhs⟩
  | .arrow _ value _, h => arePlaced_expr t _ value (h.of_mem_parts List.mem_cons_self)
  | .closure _ body _, h => by
    have hbody : ∀ s ∈ body, s.Placed P := fun s hs => h.of_mem_parts (List.mem_map_of_mem hs)
    exact List.forall_mem_append.mpr
      ⟨arePlaced_openScope _ _ hbody, arePlaced_stmts t _ body hbody⟩

theorem arePlaced_arg (t : Table) (ss : Scopes) : ∀ a : Arg, a.value.Placed P →
    ArePlaced P (argFindings t ss a)
  | .plain value, h | .spread value, h => arePlaced_expr t ss value h

theorem arePlaced_args (t : Table) (ss : Scopes) : ∀ args : List Arg,
    (∀ a ∈ args, a.value.Placed P) → ArePlaced P (argsFindings t ss args)
  | [], _ => List.forall_mem_nil _
  | a :: rest, h => by
    obtain ⟨ha, hrest⟩ := List.forall_mem_cons.mp h
    exact List.forall_mem_append.mpr ⟨arePlaced_arg t ss a ha, arePlaced_args t ss rest hrest⟩

theorem arePlaced_field (t : Table) (ss : Scopes) : ∀ f : Field, f.value.Placed P →
    ArePlaced P (fieldFindings t ss f)
  | .mk _ value, h => arePlaced_expr t ss value h

theorem arePlaced_fields (t : Table) (ss : Scopes) : ∀ fields : List Field,
    (∀ f ∈ fields, f.value.Placed P) → ArePlaced P (fieldsFindings t ss fields)
  | [], _ => List.forall_mem_nil _
  | f :: rest, h => by
    obtain ⟨hf, hrest⟩ := List.forall_mem_cons.mp h
    exact List.forall_mem_append.mpr ⟨arePlaced_field t ss f hf, arePlaced_fields t ss rest hrest⟩

theorem arePlaced_option (t : Table) (ss : Scopes) : ∀ e : Option Expr,
    (∀ x ∈ e.toList, x.Placed P) → ArePlaced P (optionFindings t ss e)
  | none, _ => List.forall_mem_nil _
  | some e, h => arePlaced_expr t ss e (h e List.mem_cons_self)

theorem arePlaced_inner (t : Table) (ss : Scopes) : ∀ s : Stmt, s.Placed P →
    ArePlaced P (innerWalk t ss s).1
  | .bind _ _ init _, h => by
    refine List.forall_mem_append.mpr ⟨?_, ?_⟩
    · exact arePlaced_option t ss init fun e he => h.of_mem_parts (List.mem_map_of_mem he)
    · exact arePlaced_declareAll _
        (fun id hid => h.of_mem_spans (List.mem_cons_of_mem _ (List.mem_map_of_mem hid))) ss
  | .function _ _ body _, h => by
    have hbody : ∀ s ∈ body, s.Placed P := fun s hs => h.of_mem_parts (List.mem_map_of_mem hs)
    exact List.forall_mem_append.mpr
      ⟨arePlaced_openScope _ _ hbody, arePlaced_stmts t _ body hbody⟩
  | .assign target value _, h => by
    refine List.forall_mem_append.mpr ⟨?_, ?_⟩
    · exact arePlaced_expr t ss target (h.of_mem_parts List.mem_cons_self)
    · exact arePlaced_expr t ss value (h.of_mem_parts (by simp [Phrase.parts]))
  | .forOf _ iterable body _, h => by
    have hbody : body.Placed P := h.of_mem_parts (by simp [Phrase.parts])
    refine List.forall_mem_append.mpr ⟨List.forall_mem_append.mpr
      ⟨List.forall_mem_append.mpr ⟨?_, ?_⟩, ?_⟩, ?_⟩
    · exact arePlaced_expr t ss iterable (h.of_mem_parts List.mem_cons_self)
    · exact arePlaced_declareAll _
        (fun id hid => h.of_mem_spans (List.mem_cons_of_mem _ (List.mem_map_of_mem hid))) _
    · exact arePlaced_openBlock _ hbody
    · exact arePlaced_inner t _ body hbody
  | .cond test whenTrue whenFalse _, h => by
    have htrue : whenTrue.Placed P := h.of_mem_parts (by simp [Phrase.parts])
    refine List.forall_mem_append.mpr ⟨List.forall_mem_append.mpr
      ⟨List.forall_mem_append.mpr ⟨?_, ?_⟩, ?_⟩, ?_⟩
    · exact arePlaced_expr t ss test (h.of_mem_parts List.mem_cons_self)
    · exact arePlaced_openScope _ _ (placed_branchBody htrue)
    · exact arePlaced_inner t _ whenTrue htrue
    · refine arePlaced_else t ss whenFalse fun s hs => h.of_mem_parts ?_
      exact List.mem_cons_of_mem _ (List.mem_cons_of_mem _ (List.mem_map_of_mem hs))
  | .result value _, h =>
    arePlaced_option t ss value fun _ he => h.of_mem_parts (List.mem_map_of_mem he)
  | .block body _, h => arePlaced_stmts t ss body (placed_body h)
  | .expr e, h => arePlaced_expr t ss e (h.of_mem_parts List.mem_cons_self)
  | .declare _ _, _ | .typeOnly _, _ | .empty _, _ => List.forall_mem_nil _

theorem arePlaced_else (t : Table) (ss : Scopes) : ∀ s : Option Stmt,
    (∀ x ∈ s.toList, x.Placed P) → ArePlaced P (elseFindings t ss s)
  | none, _ => List.forall_mem_nil _
  | some s, h => by
    have hs : s.Placed P := h s List.mem_cons_self
    exact List.forall_mem_append.mpr
      ⟨arePlaced_openScope _ _ (placed_branchBody hs), arePlaced_inner t _ s hs⟩

theorem arePlaced_stmts (t : Table) (ss : Scopes) : ∀ body : List Stmt,
    (∀ s ∈ body, s.Placed P) → ArePlaced P (stmtsWalk t ss body).1
  | [], _ => List.forall_mem_nil _
  | s :: rest, h => by
    obtain ⟨hs, hrest⟩ := List.forall_mem_cons.mp h
    refine List.forall_mem_append.mpr ⟨List.forall_mem_append.mpr ⟨?_, ?_⟩, ?_⟩
    · exact arePlaced_openBlock ss hs
    · exact arePlaced_inner t _ s hs
    · exact arePlaced_stmts t _ rest hrest

end

/-- **What the inspection of a file finds is found at an offset of its tree.** -/
theorem arePlaced_findings {f : Script.File} (hf : ∀ s ∈ f.statements, s.Placed P) (t : Table) :
    ArePlaced P (findings f t) :=
  List.forall_mem_append.mpr ⟨arePlaced_openScope _ _ hf, arePlaced_stmts t _ _ hf⟩

end Inspect

namespace Lowering

theorem placed_phraseReports {d : Dialect} {x : Phrase} (hx : x.Placed P) :
    ∀ r ∈ phraseReports d x, P r.offset := by
  induction hx with
  | @mk x hspans hparts ih =>
    intro r hr
    rcases mem_phraseReports.mp hr with hown | ⟨y, hy, hr⟩
    · have hreport : ∀ {lack : Option Lack} {offset : Nat}, P offset →
          r ∈ reportOf lack offset → P r.offset := by
        intro lack offset hoffset hmem
        cases lack with
        | none => exact absurd hmem List.not_mem_nil
        | some l =>
          rw [List.mem_singleton.mp hmem]
          exact hoffset
      unfold ownReports at hown
      split at hown
      · rename_i op operand span
        exact hreport (hspans span List.mem_cons_self).1 hown
      · rename_i op lhs rhs
        have hlhs : lhs.Placed P := hparts (.expr lhs) List.mem_cons_self
        exact hreport (Script.isPlaced_span hlhs).1 hown
      · exact absurd hown List.not_mem_nil
    · exact ih y hy r hr

/-- **What a dialect lacks is reported at an offset of the tree.** -/
theorem placed_stmtsReports (d : Dialect) {body : List Stmt} (hbody : ∀ s ∈ body, s.Placed P) :
    ∀ r ∈ stmtsReports d body, P r.offset := by
  intro r hr
  rw [stmtsReports_eq] at hr
  obtain ⟨s, hs, hmem⟩ := List.mem_flatMap.mp hr
  exact placed_phraseReports (hbody s hs) r hmem

end Lowering

end LuaSnippet
