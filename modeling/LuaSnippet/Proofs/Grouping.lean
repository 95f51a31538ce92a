/-!
# Grouping by levels

A line of operands with binary operators between them, with signs before the operands and suffixes
behind them, stands for a tree as soon as every binary operator has a level and every level groups
from one side. Which tree that is can be said without any procedure: read from left to right it gives
the line back, and every operator stands where its level allows it (`OpTree.Grouped`).

`OpTree.read?_eq_some_iff`: reading a line gives the grouped tree with this line, and so there is at
most one such tree (`OpTree.eq_of_items`). A tree is cut into its operands and the binary operators
between them (`first`, `links`). A grouped tree is what attaching its links one after the other gives
(`attachAll_links`), and a line determines the operands and the links.
-/

namespace LuaSnippet

/-- How tightly binary operators bind, and the levels that group from the right. -/
structure Levels (β : Type) where
  level : β → Nat
  fromRight : β → Bool
  uniform : ∀ b b', level b = level b' → fromRight b = fromRight b'

namespace Levels

variable {β : Type} (L : Levels β)

/-- Whether `b'` may be the operator of the left operand of `b`. -/
def AllowsLeft (b b' : β) : Prop :=
  L.level b < L.level b' ∨ L.level b = L.level b' ∧ L.fromRight b = false

/-- Whether `b'` may be the operator of the right operand of `b`. -/
def AllowsRight (b b' : β) : Prop :=
  L.level b < L.level b' ∨ L.level b = L.level b' ∧ L.fromRight b = true

instance (b b' : β) : Decidable (L.AllowsLeft b b') :=
  inferInstanceAs (Decidable (_ ∨ _))

instance (b b' : β) : Decidable (L.AllowsRight b b') :=
  inferInstanceAs (Decidable (_ ∨ _))

/-- Of two neighbouring operators exactly one takes the operand between them. -/
theorem allowsLeft_iff (b b' : β) : L.AllowsLeft b b' ↔ ¬ L.AllowsRight b' b := by
  have hu := L.uniform b b'
  unfold AllowsLeft AllowsRight
  by_cases hlevel : L.level b = L.level b'
  · rw [hu hlevel, hlevel]
    cases L.fromRight b' <;> simp
  · simp only [hlevel, Ne.symm hlevel, false_and, or_false]
    omega

end Levels

/-- A tree of operators: `α` is what an operand starts with, `σ` what may stand before an operand, `ρ`
what may stand behind one, and `β` what stands between two. -/
inductive OpTree (α σ ρ β : Type) where
  | leaf (a : α)
  | suffix (t : OpTree α σ ρ β) (r : ρ)
  | sign (s : σ) (t : OpTree α σ ρ β)
  | binary (b : β) (lhs rhs : OpTree α σ ρ β)
deriving DecidableEq, Repr

/-- One entry of the line that a tree of operators is read from. -/
inductive OpItem (α σ ρ β : Type) where
  | leaf (a : α)
  | suffix (r : ρ)
  | sign (s : σ)
  | between (b : β)

namespace OpTree

variable {α σ ρ β : Type}

/-- A tree read from left to right. -/
def items : OpTree α σ ρ β → List (OpItem α σ ρ β)
  | leaf a => [.leaf a]
  | suffix t r => t.items ++ [.suffix r]
  | sign s t => .sign s :: t.items
  | binary b lhs rhs => lhs.items ++ .between b :: rhs.items

/-- The operator at the top of a tree, if it is a binary one. -/
def op? : OpTree α σ ρ β → Option β
  | binary b _ _ => some b
  | _ => none

def IsBare : OpTree α σ ρ β → Prop
  | leaf _ => True
  | suffix t _ => t.IsBare
  | _ => False

/-- Whether every operator of a tree stands where its level allows it: a suffix belongs to a leaf with
suffixes, a sign to no binary operation, and a binary operator has operands as its level says. -/
def Grouped (L : Levels β) : OpTree α σ ρ β → Prop
  | leaf _ => True
  | suffix t _ => t.IsBare
  | sign _ t => t.op? = none ∧ t.Grouped L
  | binary b lhs rhs =>
    (∀ b', lhs.op? = some b' → L.AllowsLeft b b') ∧
      (∀ b', rhs.op? = some b' → L.AllowsRight b b') ∧ lhs.Grouped L ∧ rhs.Grouped L

theorem IsBare.op?_eq_none {t : OpTree α σ ρ β} (h : t.IsBare) : t.op? = none := by
  cases t <;> simp_all [IsBare, op?]

theorem IsBare.grouped (L : Levels β) {t : OpTree α σ ρ β} (h : t.IsBare) : t.Grouped L := by
  cases t <;> simp_all [IsBare, Grouped]

/-! ### Attaching one more operand -/

/-- A tree with one more operator and operand behind it: the operator goes down the right edge for as
long as it may be the operator of a right operand there. -/
def attach (L : Levels β) : OpTree α σ ρ β → β → OpTree α σ ρ β → OpTree α σ ρ β
  | binary b lhs rhs, b', u =>
    if L.AllowsRight b b' then binary b lhs (rhs.attach L b' u)
    else binary b' (binary b lhs rhs) u
  | t, b', u => binary b' t u

theorem attach_of_op?_eq_none {L : Levels β} {t : OpTree α σ ρ β} (h : t.op? = none) (b : β)
    (u : OpTree α σ ρ β) : t.attach L b u = binary b t u := by
  cases t <;> simp_all [attach, op?]

theorem attach_of_allowsLeft {L : Levels β} {t : OpTree α σ ρ β} {b : β}
    (h : ∀ b', t.op? = some b' → L.AllowsLeft b b') (u : OpTree α σ ρ β) :
    t.attach L b u = binary b t u := by
  cases t with
  | binary b' lhs rhs =>
    have hb := (L.allowsLeft_iff b b').mp (h b' rfl)
    rw [attach, if_neg hb]
  | _ => rfl

@[simp] theorem items_attach (L : Levels β) (t : OpTree α σ ρ β) (b : β) (u : OpTree α σ ρ β) :
    (t.attach L b u).items = t.items ++ .between b :: u.items := by
  induction t with
  | binary b' lhs rhs _ ih =>
    rw [attach]
    split
    · simp only [items, ih, List.append_assoc, List.cons_append]
    · rfl
  | _ => rfl

theorem op?_attach (L : Levels β) (t : OpTree α σ ρ β) (b : β) (u : OpTree α σ ρ β) :
    (t.attach L b u).op? = some b ∨ (t.attach L b u).op? = t.op? := by
  cases t with
  | binary b' lhs rhs =>
    rw [attach]
    split
    · exact .inr rfl
    · exact .inl rfl
  | _ => exact .inl rfl

theorem Grouped.attach {L : Levels β} {t u : OpTree α σ ρ β} (ht : t.Grouped L) (b : β)
    (hu : u.Grouped L) (hop : u.op? = none) : (t.attach L b u).Grouped L := by
  induction t with
  | binary b' lhs rhs _ ih =>
    obtain ⟨hleft, hright, hlhs, hrhs⟩ := ht
    rw [OpTree.attach]
    split
    · rename_i hb
      refine ⟨hleft, fun c hc => ?_, hlhs, ih hrhs⟩
      rcases op?_attach L rhs b u with h | h
      · rw [h, Option.some.injEq] at hc
        exact hc ▸ hb
      · exact hright c (h ▸ hc)
    · rename_i hb
      refine ⟨fun c hc => ?_, by simp [hop], ⟨hleft, hright, hlhs, hrhs⟩, hu⟩
      rw [op?, Option.some.injEq] at hc
      exact hc ▸ (L.allowsLeft_iff b b').mpr hb
  | _ => exact ⟨by simp [op?], by simp [hop], ht, hu⟩

/-- A tree with further operators and operands behind it, attached one after the other. -/
def attachAll (L : Levels β) (t : OpTree α σ ρ β) (links : List (β × OpTree α σ ρ β)) :
    OpTree α σ ρ β :=
  links.foldl (fun t link => t.attach L link.1 link.2) t

/-- The line that operators and operands form behind a tree. -/
def linkItems (links : List (β × OpTree α σ ρ β)) : List (OpItem α σ ρ β) :=
  links.flatMap fun link => .between link.1 :: link.2.items

theorem items_attachAll (L : Levels β) (t : OpTree α σ ρ β) (links : List (β × OpTree α σ ρ β)) :
    (t.attachAll L links).items = t.items ++ linkItems links := by
  induction links generalizing t with
  | nil => simp [attachAll, linkItems]
  | cons link links ih =>
    have h := ih (t.attach L link.1 link.2)
    rw [items_attach] at h
    simpa [attachAll, linkItems] using h

theorem Grouped.attachAll {L : Levels β} {t : OpTree α σ ρ β} (ht : t.Grouped L)
    {links : List (β × OpTree α σ ρ β)}
    (hlinks : ∀ link ∈ links, link.2.Grouped L ∧ link.2.op? = none) :
    (t.attachAll L links).Grouped L := by
  induction links generalizing t with
  | nil => exact ht
  | cons link links ih =>
    obtain ⟨hlink, hrest⟩ := List.forall_mem_cons.mp hlinks
    exact ih (ht.attach link.1 hlink.1 hlink.2) hrest

theorem attachAll_binary {L : Levels β} {b : β} {links : List (β × OpTree α σ ρ β)}
    (h : ∀ link ∈ links, L.AllowsRight b link.1) (lhs rhs : OpTree α σ ρ β) :
    (binary b lhs rhs).attachAll L links = binary b lhs (rhs.attachAll L links) := by
  induction links generalizing rhs with
  | nil => rfl
  | cons link links ih =>
    obtain ⟨hlink, hrest⟩ := List.forall_mem_cons.mp h
    have hstep : (binary b lhs rhs).attach L link.1 link.2 =
        binary b lhs (rhs.attach L link.1 link.2) := by
      rw [attach, if_pos hlink]
    simp only [attachAll, List.foldl_cons, hstep]
    exact ih hrest _

/-! ### Cutting a tree at its binary operators -/

def first : OpTree α σ ρ β → OpTree α σ ρ β
  | binary _ lhs _ => lhs.first
  | t => t

/-- The binary operators of a tree, each with the operand behind it. -/
def links : OpTree α σ ρ β → List (β × OpTree α σ ρ β)
  | binary b lhs rhs => lhs.links ++ (b, rhs.first) :: rhs.links
  | _ => []

theorem first_op? (t : OpTree α σ ρ β) : t.first.op? = none := by
  induction t with
  | binary b lhs rhs ih _ => exact ih
  | _ => rfl

theorem links_op? (t : OpTree α σ ρ β) : ∀ link ∈ t.links, link.2.op? = none := by
  induction t with
  | binary b lhs rhs ihl ihr =>
    intro link hlink
    rcases List.mem_append.mp hlink with h | h
    · exact ihl link h
    · rcases List.mem_cons.mp h with rfl | h
      · exact first_op? rhs
      · exact ihr link h
  | _ => simp [links]

theorem items_eq (t : OpTree α σ ρ β) : t.items = t.first.items ++ linkItems t.links := by
  induction t with
  | binary b lhs rhs ihl ihr =>
    rw [items, ihl, ihr]
    simp [first, links, linkItems]
  | _ => simp [first, links, linkItems]

theorem Grouped.parts {L : Levels β} {t : OpTree α σ ρ β} (ht : t.Grouped L) :
    t.first.Grouped L ∧ ∀ link ∈ t.links, link.2.Grouped L := by
  induction t with
  | binary b lhs rhs ihl ihr =>
    obtain ⟨hfirst, hlinks⟩ := ihl ht.2.2.1
    obtain ⟨hfirst', hlinks'⟩ := ihr ht.2.2.2
    refine ⟨hfirst, fun link hlink => ?_⟩
    rcases List.mem_append.mp hlink with h | h
    · exact hlinks link h
    · rcases List.mem_cons.mp h with rfl | h
      · exact hfirst'
      · exact hlinks' link h
  | _ => exact ⟨ht, by simp [links]⟩

/-- What may stand to the right of an operator does so with all its operators. -/
theorem Grouped.allowsRight_links {L : Levels β} {t : OpTree α σ ρ β} (ht : t.Grouped L) {b : β}
    (h : ∀ b', t.op? = some b' → L.AllowsRight b b') : ∀ link ∈ t.links, L.AllowsRight b link.1 := by
  induction t with
  | binary c lhs rhs ihl ihr =>
    obtain ⟨hleft, hright, hlhs, hrhs⟩ := ht
    have hc : L.AllowsRight b c := h c rfl
    intro link hlink
    rcases List.mem_append.mp hlink with hl | hl
    · refine ihl hlhs (fun d hd => ?_) link hl
      have hcd := hleft d hd
      unfold Levels.AllowsLeft at hcd
      unfold Levels.AllowsRight at hc ⊢
      have hu := L.uniform b c
      rcases hcd with hcd | ⟨hcd, hcr⟩
      · omega
      · rcases hc with hc | ⟨hc, hbr⟩
        · omega
        · exact absurd (hu hc) (by simp [hbr, hcr])
    · rcases List.mem_cons.mp hl with rfl | hl
      · exact hc
      · refine ihr hrhs (fun d hd => ?_) link hl
        have hcd := hright d hd
        unfold Levels.AllowsRight at hcd hc ⊢
        rcases hc with hc | ⟨hc, hbr⟩
        · omega
        · rcases hcd with hcd | ⟨hcd, -⟩
          · omega
          · exact .inr ⟨hc.trans hcd, hbr⟩
  | _ => simp [links]

/-- **A grouped tree is what attaching its links gives.** -/
theorem Grouped.attachAll_links {L : Levels β} {t : OpTree α σ ρ β} (ht : t.Grouped L) :
    t.first.attachAll L t.links = t := by
  induction t with
  | binary b lhs rhs ihl ihr =>
    obtain ⟨hleft, hright, hlhs, hrhs⟩ := ht
    have hsplit : lhs.first.attachAll L (lhs.links ++ (b, rhs.first) :: rhs.links) =
        ((lhs.first.attachAll L lhs.links).attach L b rhs.first).attachAll L rhs.links := by
      simp only [OpTree.attachAll, List.foldl_append, List.foldl_cons]
    rw [first, links, hsplit, ihl hlhs, attach_of_allowsLeft hleft,
      attachAll_binary (hrhs.allowsRight_links hright), ihr hrhs]
  | _ => rfl

/-! ### Reading the operands off the line -/

/-- A line cut at its binary operators. -/
def cut : List (OpItem α σ ρ β) →
    List (OpItem α σ ρ β) × List (β × List (OpItem α σ ρ β))
  | [] => ([], [])
  | .between b :: rest => ([], (b, (cut rest).1) :: (cut rest).2)
  | i :: rest => (i :: (cut rest).1, (cut rest).2)

theorem Grouped.cut_items_append {L : Levels β} {t : OpTree α σ ρ β} (ht : t.Grouped L)
    (hop : t.op? = none) (rest : List (OpItem α σ ρ β)) :
    cut (t.items ++ rest) = (t.items ++ (cut rest).1, (cut rest).2) := by
  induction t generalizing rest with
  | leaf a => rfl
  | suffix t r ih =>
    have hbare : t.IsBare := ht
    rw [items, List.append_assoc, ih (hbare.grouped L) hbare.op?_eq_none]
    simp [cut]
  | sign s t ih => simp [items, cut, ih ht.2 ht.1]
  | binary b lhs rhs => simp [op?] at hop

theorem cut_linkItems {L : Levels β} {links : List (β × OpTree α σ ρ β)}
    (h : ∀ link ∈ links, link.2.Grouped L ∧ link.2.op? = none) :
    cut (linkItems links) = ([], links.map fun link => (link.1, link.2.items)) := by
  induction links with
  | nil => rfl
  | cons link links ih =>
    obtain ⟨⟨hlink, hop⟩, hrest⟩ := List.forall_mem_cons.mp h
    have hcons : linkItems (link :: links) =
        OpItem.between link.1 :: (link.2.items ++ linkItems links) := by simp [linkItems]
    rw [hcons, cut, hlink.cut_items_append hop, ih hrest]
    simp

theorem Grouped.cut_items {L : Levels β} {t : OpTree α σ ρ β} (ht : t.Grouped L) :
    cut t.items = (t.first.items, t.links.map fun link => (link.1, link.2.items)) := by
  have hlinks : ∀ link ∈ t.links, link.2.Grouped L ∧ link.2.op? = none :=
    fun link h => ⟨ht.parts.2 link h, links_op? t link h⟩
  rw [items_eq, ht.parts.1.cut_items_append (first_op? t), cut_linkItems hlinks]
  simp

/-! ### Reading a line -/

/-- A tree with the suffixes of a line, which holds nothing else. -/
def readSuffixes : OpTree α σ ρ β → List (OpItem α σ ρ β) → Option (OpTree α σ ρ β)
  | t, [] => some t
  | t, .suffix r :: rest => readSuffixes (suffix t r) rest
  | _, _ => none

/-- The tree of a line without binary operators. -/
def readOperand : List (OpItem α σ ρ β) → Option (OpTree α σ ρ β)
  | .sign s :: rest => (readOperand rest).map (sign s)
  | .leaf a :: rest => readSuffixes (leaf a) rest
  | _ => none

/-- The trees of the operands behind some binary operators. -/
def readLinks : List (β × List (OpItem α σ ρ β)) → Option (List (β × OpTree α σ ρ β))
  | [] => some []
  | link :: links =>
    (readOperand link.2).bind fun t => (readLinks links).map fun ls => (link.1, t) :: ls

/-- The tree of a line: its operands are attached one after the other. -/
def read? (L : Levels β) (items : List (OpItem α σ ρ β)) : Option (OpTree α σ ρ β) :=
  (readOperand (cut items).1).bind fun t => (readLinks (cut items).2).map fun ls => t.attachAll L ls

theorem IsBare.readOperand_items_append {t : OpTree α σ ρ β} (ht : t.IsBare)
    (rest : List (OpItem α σ ρ β)) : readOperand (t.items ++ rest) = readSuffixes t rest := by
  induction t generalizing rest with
  | leaf a => rfl
  | suffix t r ih =>
    rw [items, List.append_assoc, ih ht]
    rfl
  | sign | binary => exact ht.elim

theorem Grouped.readOperand_items {L : Levels β} {t : OpTree α σ ρ β} (ht : t.Grouped L)
    (hop : t.op? = none) : readOperand t.items = some t := by
  induction t with
  | leaf a => rfl
  | suffix t r =>
    have h := IsBare.readOperand_items_append (t := suffix t r) ht []
    rw [List.append_nil] at h
    exact h
  | sign s t ih => rw [items, readOperand, ih ht.2 ht.1, Option.map_some]
  | binary => simp [op?] at hop

theorem readLinks_map_items {L : Levels β} {links : List (β × OpTree α σ ρ β)}
    (h : ∀ link ∈ links, link.2.Grouped L ∧ link.2.op? = none) :
    readLinks (links.map fun link => (link.1, link.2.items)) = some links := by
  induction links with
  | nil => rfl
  | cons link links ih =>
    obtain ⟨⟨hlink, hop⟩, hrest⟩ := List.forall_mem_cons.mp h
    rw [List.map_cons, readLinks, hlink.readOperand_items hop, ih hrest]
    rfl

theorem readSuffixes_eq_some {t u : OpTree α σ ρ β} {items : List (OpItem α σ ρ β)}
    (ht : t.IsBare) (h : readSuffixes t items = some u) : u.items = t.items ++ items ∧ u.IsBare := by
  induction items generalizing t with
  | nil =>
    obtain rfl : t = u := by simpa [readSuffixes] using h
    exact ⟨by simp, ht⟩
  | cons i items ih =>
    cases i with
    | suffix r =>
      obtain ⟨hitems, hbare⟩ := ih (t := suffix t r) ht h
      exact ⟨by rw [hitems, OpTree.items]; simp, hbare⟩
    | leaf | sign | between => simp [readSuffixes] at h

theorem readOperand_eq_some (L : Levels β) {u : OpTree α σ ρ β} {items : List (OpItem α σ ρ β)}
    (h : readOperand items = some u) : u.items = items ∧ u.Grouped L ∧ u.op? = none := by
  induction items generalizing u with
  | nil => simp [readOperand] at h
  | cons i items ih =>
    cases i with
    | sign s =>
      obtain ⟨t, ht, rfl⟩ := Option.map_eq_some_iff.mp h
      obtain ⟨hitems, hgrouped, hop⟩ := ih ht
      exact ⟨by rw [OpTree.items, hitems], ⟨hop, hgrouped⟩, rfl⟩
    | leaf a =>
      obtain ⟨hitems, hbare⟩ := readSuffixes_eq_some (t := leaf a) trivial h
      exact ⟨hitems, hbare.grouped L, hbare.op?_eq_none⟩
    | suffix | between => simp [readOperand] at h

theorem readLinks_eq_some (L : Levels β) {cuts : List (β × List (OpItem α σ ρ β))}
    {links : List (β × OpTree α σ ρ β)} (h : readLinks cuts = some links) :
    linkItems links = cuts.flatMap (fun c => .between c.1 :: c.2) ∧
      ∀ link ∈ links, link.2.Grouped L ∧ link.2.op? = none := by
  induction cuts generalizing links with
  | nil =>
    obtain rfl : [] = links := by simpa [readLinks] using h
    exact ⟨rfl, by simp⟩
  | cons c cuts ih =>
    obtain ⟨t, ht, hrest⟩ := Option.bind_eq_some_iff.mp h
    obtain ⟨ls, hls, rfl⟩ := Option.map_eq_some_iff.mp hrest
    obtain ⟨hitems, hgrouped, hop⟩ := readOperand_eq_some L ht
    obtain ⟨hline, hlinks⟩ := ih hls
    refine ⟨?_, List.forall_mem_cons.mpr ⟨⟨hgrouped, hop⟩, hlinks⟩⟩
    rw [List.flatMap_cons, ← hline, ← hitems]
    simp [linkItems]

theorem cut_append (items : List (OpItem α σ ρ β)) :
    (cut items).1 ++ (cut items).2.flatMap (fun c => .between c.1 :: c.2) = items := by
  induction items with
  | nil => rfl
  | cons i items ih => cases i <;> simp [cut, ih]

/-- **A line is read as the one grouped tree that reads so**, if there is one. -/
theorem read?_eq_some_iff {L : Levels β} {items : List (OpItem α σ ρ β)} {t : OpTree α σ ρ β} :
    read? L items = some t ↔ t.items = items ∧ t.Grouped L := by
  constructor
  · intro h
    obtain ⟨u, hu, hrest⟩ := Option.bind_eq_some_iff.mp h
    obtain ⟨links, hlinks, rfl⟩ := Option.map_eq_some_iff.mp hrest
    obtain ⟨hitems, hgrouped, -⟩ := readOperand_eq_some L hu
    obtain ⟨hline, hall⟩ := readLinks_eq_some L hlinks
    refine ⟨?_, hgrouped.attachAll hall⟩
    rw [items_attachAll, hitems, hline, cut_append]
  · rintro ⟨rfl, ht⟩
    have hlinks : ∀ link ∈ t.links, link.2.Grouped L ∧ link.2.op? = none :=
      fun link h => ⟨ht.parts.2 link h, links_op? t link h⟩
    unfold read?
    rw [ht.cut_items, ht.parts.1.readOperand_items (first_op? t), readLinks_map_items hlinks,
      Option.bind_some, Option.map_some, ht.attachAll_links]

/-- **A line belongs to one grouped tree at most.** -/
theorem eq_of_items {L : Levels β} {t u : OpTree α σ ρ β} (ht : t.Grouped L) (hu : u.Grouped L)
    (h : t.items = u.items) : t = u := by
  have htread : read? L t.items = some t := read?_eq_some_iff.mpr ⟨rfl, ht⟩
  have huread : read? L u.items = some u := read?_eq_some_iff.mpr ⟨rfl, hu⟩
  rw [h, huread] at htread
  exact (Option.some.inj htread).symm

end OpTree

end LuaSnippet
