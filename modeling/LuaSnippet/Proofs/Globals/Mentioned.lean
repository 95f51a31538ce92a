import LuaSnippet.Proofs.Script.Site
import LuaSnippet.Globals.Overload

/-!
# Names that a script mentions

Global names are looked up for a name that is read, for the owner of a member, and for the overloads
of a call. Each time the name that is looked up stands in the script: behind all groups and marks the
callee is a name, or a member of one (`AgreeOn.overloads?`).
-/

namespace LuaSnippet.Globals

open Script

/-! ### Tables that agree -/

/-- Whether two tables give every name at some sites the same meaning. -/
def AgreeOn (t t' : Table) (ps : List Site) : Prop :=
  ∀ q ∈ namesAt ps, t.find? q.1.name = t'.find? q.1.name

variable {t t' : Table} {ps qs : List Site} {w : Way}

theorem agreeOn_append : AgreeOn t t' (ps ++ qs) ↔ AgreeOn t t' ps ∧ AgreeOn t t' qs := by
  rw [AgreeOn, namesAt_append, List.forall_mem_append]
  rfl

theorem AgreeOn.ident {id : Ident} (h : AgreeOn t t' (exprSites w (.ident id))) :
    t.find? id.name = t'.find? id.name :=
  h (id, w) List.mem_cons_self

theorem exprSites_bare (w : Way) : ∀ e : Expr, exprSites w e.bare = exprSites w e
  | .nonNull inner | .paren inner _ => exprSites_bare w inner
  | .number _ _ | .string _ _ | .bool _ _ | .absent _ | .ident _ | .array _ _ | .object _ _
  | .call _ _ _ | .member _ _ | .unary _ _ _ | .binary _ _ _ | .arrow _ _ _ | .closure _ _ _ => rfl

theorem AgreeOn.overloads? {callee : Expr} (h : AgreeOn t t' (exprSites w callee))
    (isLocal : String → Bool) : overloads? t isLocal callee = overloads? t' isLocal callee := by
  rw [← exprSites_bare] at h
  unfold Globals.overloads?
  split
  next f hf =>
    rw [hf] at h
    rw [h.ident]
  next owner property hcallee =>
    rw [hcallee] at h
    have howner := (agreeOn_append.mp h).1
    rw [← exprSites_bare] at howner
    split
    next space hspace =>
      rw [hspace] at howner
      rw [howner.ident]
    · rfl
  · rfl

end LuaSnippet.Globals
