import LuaSnippet.Proofs.Row
import LuaSnippet.Proofs.Peg.Termination

/-!
# The order of nodes

The nodes that a match leaves stand one behind the other, between the place where it started and the
place it came to (`Derives.inRow`). A rule that matches with nothing stands on no characters; every
other one stands on some (`Grammar.Ranked.offset_lt`).
-/

namespace LuaSnippet.Peg

open Text (byteLength)

variable {R : Type}

theorem Cursor.Leads.offset_le {cur stop : Cursor} (h : cur.Leads stop) :
    cur.offset ≤ stop.offset := by
  obtain ⟨cs, -, hoffset⟩ := h
  omega

def Node.StandsAt (a b : Nat) (x : Node R) : Prop := x.start.offset = a ∧ x.stop.offset = b

variable {g : Grammar R} {ctx : Context} {p : Pattern R} {cur stop : Cursor} {nodes : List (Node R)}

/-- **The nodes of a derivation stand one behind the other.** -/
theorem Derives.inRow (hskip : g.SkipsAhead) (h : Derives g ctx p cur nodes stop) :
    InRow Node.StandsAt cur.offset nodes stop.offset := by
  induction h with
  | word h => exact .nil (Cursor.Leads.take? h).offset_le
  | char hrest _ => exact .nil (Cursor.Leads.past hrest).offset_le
  | finish | absent | noRound | noMore | forbid => exact .nil (Nat.le_refl _)
  | seq _ _ iha ihb => exact iha.append (ihb.from_before (hskip.pass _ _).offset_le)
  | round _ _ iha ihb => exact iha.append ihb
  | more _ _ iha ihb => exact (iha.from_before (hskip.pass _ _).offset_le).append ihb
  | left _ ih | right _ ih | present _ ih | silent _ _ ih => exact ih
  | @call ctx r cur stop xs _ hbody ih =>
    unfold leave
    split
    · exact .single (hbody.leads hskip).offset_le ⟨rfl, rfl⟩
    · exact ih

theorem Grammar.Ranked.offset_lt {null : R → Bool} {ranks : R → Nat} {bound : Nat}
    (hg : g.Ranked null ranks bound) (h : Derives g ctx p cur nodes stop)
    (hp : p.isNullable null = false) : cur.offset < stop.offset := by
  have hread := hg.length_lt h hp
  obtain ⟨cs, hrest, hoffset⟩ := h.leads hg.skipsAhead
  cases cs with
  | nil =>
    rw [hrest, List.nil_append] at hread
    omega
  | cons c cs =>
    have hsize := c.utf8Size_pos
    rw [byteLength] at hoffset
    omega

theorem Derives.mem_calls (h : Derives g ctx p cur nodes stop) :
    ∀ x ∈ nodes, x.rule ∈ p.calls ∨ ∃ r, x.rule ∈ (g.body r).calls := by
  induction h with
  | word | char | finish | absent | noRound | noMore | forbid => simp
  | seq _ _ iha ihb =>
    refine List.forall_mem_append.mpr ⟨fun x hx => ?_, fun x hx => ?_⟩
    · exact (iha x hx).imp_left (List.mem_append_left _)
    · exact (ihb x hx).imp_left (List.mem_append_right _)
  | round _ _ iha ihb | more _ _ iha ihb => exact List.forall_mem_append.mpr ⟨iha, ihb⟩
  | left _ ih => exact fun x hx => (ih x hx).imp_left (List.mem_append_left _)
  | right _ ih => exact fun x hx => (ih x hx).imp_left (List.mem_append_right _)
  | present _ ih => exact ih
  | @silent ctx r cur stop xs _ _ ih =>
    intro x hx
    rcases ih x hx with hr | hr
    · exact .inr ⟨r, hr⟩
    · exact .inr hr
  | @call ctx r cur stop xs _ _ ih =>
    unfold leave
    split
    · exact List.forall_mem_singleton.mpr (.inl List.mem_cons_self)
    · intro x hx
      rcases ih x hx with hr | hr
      · exact .inr ⟨r, hr⟩
      · exact .inr hr

end LuaSnippet.Peg
