import LuaSnippet.Proofs.Globals.Merged
import LuaSnippet.Proofs.Globals.Union
import LuaSnippet.Proofs.Script.Abreast
import LuaSnippet.Proofs.Script.Cut

/-!
# Comments in declarations

Comments that become spaces change neither which names are declared, nor how many overloads a function
has, nor how many arguments these take. They do change the text of a type: it is kept with the comments
in it, which are no part of any known word, so that a literal may pass where it would be refused without
the comment, and the other way round. A call is answered alike if the literals in it are held alike
against the types that have a slash in them (`overloads_spaced`).
-/

namespace LuaSnippet.Globals

open Script (Signature Param Declaration Stmt Edition Expr Arg IsSpaced AreCut Segment written)
open LuaSnippet.Text (isBlank trim trimEnd trimChars)

/-! ### Tables -/

mutual

/-- Whether a name stands for the same in two tables but for comments in types. -/
inductive Entry.Alike : Entry → Entry → Prop where
  | functions {overloads overloads'} (h : List.Forall₂ Signature.Alike overloads overloads') :
    Entry.Alike (.functions overloads) (.functions overloads')
  | value {type type'} (h : IsSpaced type type') : Entry.Alike (.value type) (.value type')
  | space {inner inner'} (h : Table.Alike inner inner') :
    Entry.Alike (.space inner) (.space inner')

/-- Whether two tables are the same but for comments in types. -/
inductive Table.Alike : Table → Table → Prop where
  | nil : Table.Alike [] []
  | cons (name : String) {e e' t t'} (he : Entry.Alike e e') (ht : Table.Alike t t') :
    Table.Alike ((name, e) :: t) ((name, e') :: t')

end

namespace Table.Alike

variable {t t' : Table} {name : String}

theorem find? (h : t.Alike t') (name : String) :
    Option.Rel Entry.Alike (t.find? name) (t'.find? name) := by
  induction t generalizing t' with
  | nil =>
    cases h
    exact .none
  | cons entry rest ih =>
    cases h with
    | cons n he hrest =>
      rw [Table.find?, Table.find?]
      split
      · exact .some he
      · exact ih hrest

theorem alter (h : t.Alike t') {f f' : Option Entry → Entry}
    (hf : ∀ {old old'}, Option.Rel Entry.Alike old old' → (f old).Alike (f' old')) :
    (t.alter name f).Alike (t'.alter name f') := by
  induction t generalizing t' with
  | nil =>
    cases h
    exact .cons name (hf .none) .nil
  | cons entry rest ih =>
    cases h with
    | cons n he hrest =>
      rw [Table.alter, Table.alter]
      split
      · exact .cons n (hf (.some he)) hrest
      · split
        · exact .cons name (hf .none) (.cons n he hrest)
        · exact .cons n he (ih hrest)

end Table.Alike

mutual

theorem Entry.Alike.merged : ∀ {d d' : Declaration}, d.Alike d' → ∀ {old old' : Option Entry},
    Option.Rel Entry.Alike old old' → (merged d old).Alike (merged d' old')
  | .function _, .function _, .function hs, _, _, .none => .functions (.cons hs .nil)
  | .function _, .function _, .function hs, _, _, .some (.functions hoverloads) =>
    .functions (List.rel_append hoverloads (.cons hs .nil))
  | .function _, .function _, .function _, _, _, .some (.value h) => .value h
  | .function _, .function _, .function _, _, _, .some (.space h) => .space h
  | .value _ _, .value _ _, .value htype, _, _, .none => .value htype
  | .value _ _, .value _ _, .value _, _, _, .some (.functions h) => .functions h
  | .value _ _, .value _ _, .value _, _, _, .some (.value h) => .value h
  | .value _ _, .value _ _, .value _, _, _, .some (.space h) => .space h
  | .space _ _, .space _ _, .space hmembers, _, _, .none =>
    .space (Table.Alike.declareAll hmembers .nil)
  | .space _ _, .space _ _, .space _, _, _, .some (.functions h) => .functions h
  | .space _ _, .space _ _, .space _, _, _, .some (.value h) => .value h
  | .space _ _, .space _ _, .space hmembers, _, _, .some (.space h) =>
    .space (Table.Alike.declareAll hmembers h)

/-- **Alike declarations make alike tables.** -/
theorem Table.Alike.declareAll : ∀ {ds ds' : List Declaration}, List.Forall₂ Declaration.Alike ds ds' →
    ∀ {t t' : Table}, t.Alike t' → (declareAll ds t).Alike (declareAll ds' t')
  | [], [], .nil, _, _, ht => ht
  | d :: ds, d' :: ds', .cons hd hds, t, t', ht => by
    rw [Globals.declareAll, Globals.declareAll, declare_eq, declare_eq, ← hd.name]
    exact Table.Alike.declareAll hds (ht.alter fun hold => Entry.Alike.merged hd hold)

end

section

variable {t t' : Table}

/-- The overloads that a name has, given what it stands for. -/
def functionsOf : Option Entry → Option (List Signature)
  | some (.functions overloads) => some overloads
  | _ => none

theorem functionsOf_alike {e e' : Option Entry} (h : Option.Rel Entry.Alike e e') :
    Option.Rel (List.Forall₂ Signature.Alike) (functionsOf e) (functionsOf e') := by
  cases h with
  | none => exact .none
  | some he =>
    cases he with
    | functions hoverloads => exact .some hoverloads
    | value | space => exact .none

/-- **A call calls alike overloads.** -/
theorem Table.Alike.overloads? (h : t.Alike t') (isLocal : String → Bool) (callee : Expr) :
    Option.Rel (List.Forall₂ Signature.Alike) (overloads? t isLocal callee)
      (overloads? t' isLocal callee) := by
  unfold Globals.overloads?
  split
  next f _ =>
    split
    · exact .none
    · exact functionsOf_alike (h.find? f.name)
  next owner property _ =>
    split
    next space _ =>
      split
      · exact .none
      · have hspace := h.find? space.name
        generalize t.find? space.name = e, t'.find? space.name = e' at hspace ⊢
        cases hspace with
        | none => exact .none
        | some he =>
          cases he with
          | space hinner => exact functionsOf_alike (hinner.find? property.name)
          | functions | value => exact .none
    · exact .none
  · exact .none

end

/-! ### Types -/

theorem eq_of_isSpaced {type type' : String} (h : IsSpaced type type') (hslash : '/' ∉ type.toList) :
    type = type' := by
  obtain ⟨segs, -, htype, htype'⟩ := h
  have hsegs : segs.map Segment.spaced = segs := by
    refine List.map_congr_left (fun s hs => ?_) |>.trans segs.map_id
    have hnone : '/' ∉ s.text := by
      intro hmem
      rw [htype, written] at hslash
      exact hslash (List.mem_flatMap.mpr ⟨s, hs, hmem⟩)
    cases s with
    | char | quoted => rfl
    | line | block => exact absurd List.mem_cons_self hnone
  rw [← String.toList_inj, htype, htype', hsegs]

theorem mem_trimChars {cs : List Char} {c : Char} (hc : isBlank c = false) (hmem : c ∈ cs) :
    c ∈ trimChars cs := by
  have hdrop {ds : List Char} (h : c ∈ ds) : c ∈ ds.dropWhile isBlank := by
    rw [← List.takeWhile_append_dropWhile (p := isBlank) (l := ds), List.mem_append] at h
    refine h.resolve_left fun hblank => ?_
    have hblank := List.mem_takeWhile_imp hblank
    rw [hc] at hblank
    cases hblank
  rw [trimChars, trimEnd, List.mem_reverse]
  exact hdrop (List.mem_reverse.mpr (hdrop hmem))

theorem mem_of_mem_trimChars {cs : List Char} {c : Char} (hmem : c ∈ trimChars cs) : c ∈ cs := by
  rw [trimChars, trimEnd, List.mem_reverse] at hmem
  have hmem := (List.dropWhile_sublist _).subset hmem
  exact (List.dropWhile_sublist _).subset (List.mem_reverse.mp hmem)

theorem slash_mem_trim {type : String} (h : '/' ∈ type.toList) : '/' ∈ (trim type).toList := by
  rw [trim, String.toList_ofList]
  exact mem_trimChars (by decide) h

theorem slash_mem_elementType {type : String} (h : '/' ∈ type.toList) :
    '/' ∈ (elementType type).toList := by
  rw [elementType]
  split
  next hsuffix =>
    obtain ⟨cs, hcs⟩ := List.isSuffixOf_iff_suffix.mp hsuffix
    refine slash_mem_trim ?_
    rw [String.toList_ofList, ← hcs]
    rw [← hcs, List.mem_append] at h
    simpa using h
  · exact slash_mem_trim h

theorem stringType?_eq_none_of_notMem {type : String} (hdouble : '"' ∉ type.toList)
    (hsingle : '\'' ∉ type.toList) : stringType? type = none := by
  have hnone {q : Char} (hq : q ∉ type.toList) : unquote? q type.toList = none :=
    unquote?_eq_none fun h => hq (List.mem_of_mem_head? h)
  rw [stringType?, hnone hdouble, hnone hsingle]
  rfl

/-- The parts of a union hold all of it but the bars. -/
theorem flatten_unionParts (cs : List Char) : (unionParts cs).flatten = cs.filter (· ≠ '|') := by
  induction cs with
  | nil => rfl
  | cons c cs ih =>
    by_cases hc : c = '|'
    · rw [unionParts, if_pos hc, List.flatten_cons, List.nil_append, ih,
        List.filter_cons_of_neg (by simpa using hc)]
    · obtain ⟨p, ps, hps, hcons⟩ := unionParts_cons hc cs
      rw [hps, List.flatten_cons] at ih
      rw [hcons, List.flatten_cons, List.cons_append, ih, List.filter_cons_of_pos (by simpa using hc)]

theorem exists_mem_unionParts_iff {cs : List Char} {c : Char} :
    (∃ p ∈ unionParts cs, c ∈ p) ↔ c ∈ cs ∧ c ≠ '|' := by
  rw [← List.mem_flatten, flatten_unionParts, List.mem_filter, decide_eq_true_eq]

/-- **A type with a slash in it lets every literal pass**, if there are no quotes in it. -/
theorem fits_of_slash {type : String} (hslash : '/' ∈ type.toList) (hdouble : '"' ∉ type.toList)
    (hsingle : '\'' ∉ type.toList) (l : Literal) : l.fits type = true := by
  obtain ⟨part, hpart, hmem⟩ := exists_mem_unionParts_iff.mpr ⟨hslash, by decide⟩
  have hwithin {c : Char} (hc : c ∈ (trim (String.ofList part)).toList) : c ∈ type.toList := by
    rw [trim_ofList, String.toList_ofList] at hc
    exact (exists_mem_unionParts_iff.mp ⟨part, hpart, mem_of_mem_trimChars hc⟩).1
  have hforeign : '/' ∈ (trim (String.ofList part)).toList :=
    slash_mem_trim (by rwa [String.toList_ofList])
  rw [Literal.fits, List.any_eq_true]
  refine ⟨_, List.mem_map_of_mem hpart, fitsMember_of_isForeign rfl hforeign ?_ l⟩
  exact stringType?_eq_none_of_notMem (fun h => hdouble (hwithin h)) (fun h => hsingle (hwithin h))

/-! ### Parameters -/

section

variable {s s' : Signature} {index : Nat}

theorem rel_find? {ps ps' : List Param} (h : List.Forall₂ Param.Alike ps ps') :
    Option.Rel Param.Alike (ps.find? fun p => p.isRest) (ps'.find? fun p => p.isRest) := by
  induction h with
  | nil => exact .none
  | cons hp _ ih =>
    rw [List.find?_cons, List.find?_cons, hp.isRest]
    split
    · exact .some hp
    · exact ih

theorem rel_getElem? {ps ps' : List Param} (h : List.Forall₂ Param.Alike ps ps') (index : Nat) :
    Option.Rel Param.Alike ps[index]? ps'[index]? := by
  induction h generalizing index with
  | nil => exact .none
  | cons hp _ ih =>
    cases index with
    | zero => exact .some hp
    | succ index => exact ih index

theorem paramAt_alike (h : s.Alike s') (index : Nat) :
    Option.Rel Param.Alike (paramAt s index) (paramAt s' index) := by
  have hrest : Option.Rel Param.Alike (restParam s) (restParam s') := rel_find? h.params
  have hplain := rel_getElem? h.params index
  unfold paramAt
  generalize s.params[index]? = p, s'.params[index]? = p' at hplain ⊢
  cases hplain with
  | none => exact hrest
  | some hp =>
    simp only [hp.isRest]
    split
    · exact hrest
    · exact .some hp

theorem parameterType_alike (h : s.Alike s') (index : Nat) :
    Option.Rel (fun type type' => '/' ∈ type.toList ∨ type = type') (parameterType s index)
      (parameterType s' index) := by
  have hparam := paramAt_alike h index
  unfold parameterType
  generalize paramAt s index = p, paramAt s' index = p' at hparam ⊢
  cases hparam with
  | none => exact .none
  | @some p p' hp =>
    rw [Option.bind_some, Option.bind_some, hp.isRest]
    have htype := hp.type
    generalize p.type? = type, p'.type? = type' at htype ⊢
    cases htype with
    | none => exact .none
    | @some type type' htype =>
      refine .some ?_
      by_cases hslash : '/' ∈ type.toList
      · left
        split
        · exact slash_mem_elementType (slash_mem_trim hslash)
        · exact slash_mem_trim hslash
      · exact .inr (by rw [eq_of_isSpaced htype hslash])

/-- Whether a call has to give an argument for a parameter. -/
def isRequired (p : Param) : Bool := !p.isOptional && !p.isRest

theorem minArgs_alike (h : s.Alike s') : s.minArgs = s'.minArgs := by
  have hrequired {p p' : Param} (hp : p.Alike p') : isRequired p = true ↔ isRequired p' = true := by
    rw [isRequired, isRequired, hp.isOptional, hp.isRest]
  have hparams := List.rel_filter (fun _ _ hp => hrequired hp) h.params
  exact hparams.length_eq

theorem maxArgs_alike (h : s.Alike s') : s.maxArgs = s'.maxArgs := by
  have hparams := h.params
  rw [Signature.maxArgs, Signature.maxArgs, h.params.length_eq]
  congr 2
  generalize s.params = ps, s'.params = ps' at hparams ⊢
  induction hparams with
  | nil => rfl
  | cons hp _ ih => rw [List.any_cons, List.any_cons, hp.isRest, ih]

end

/-! ### Selection -/

/-- Whether two reasons are of one kind, about the same argument if they are about one. -/
inductive Mismatch.Alike : Mismatch → Mismatch → Prop where
  | arity (min : Nat) (max : Option Nat) (got : Nat) : Alike (.arity min max got) (.arity min max got)
  | argument (index : Nat) (argument type type' : String) :
    Alike (.argument index argument type) (.argument index argument type')
  | noOverload : Alike .noOverload .noOverload

/-- Whether two calls take the overload with the same index, or are refused for reasons of one kind. -/
inductive SelectsAlike : Except Mismatch (Nat × Signature) → Except Mismatch (Nat × Signature) → Prop
  where
  | ok (index : Nat) {s s' : Signature} (h : s.Alike s') : SelectsAlike (.ok (index, s)) (.ok (index, s'))
  | error {m m' : Mismatch} (h : m.Alike m') : SelectsAlike (.error m) (.error m')

/-- Whether the literals among some arguments, with their places, are held alike against the types in
two signatures: one that meets a type with a slash in it passes in both or in none. -/
def HeldAlike (held : List (Arg × Nat)) (s s' : Signature) : Prop :=
  ∀ a ∈ held, ∀ l ∈ Literal.of? a.1.value, ∀ type ∈ parameterType s a.2,
    ∀ type' ∈ parameterType s' a.2, '/' ∈ type.toList → l.fits type = l.fits type'

instance (held : List (Arg × Nat)) (s s' : Signature) : Decidable (HeldAlike held s s') := by
  unfold HeldAlike
  infer_instance

/-- The arguments before the first spread one, with their places. -/
def heldArgs (args : List Arg) : List (Arg × Nat) :=
  (args.takeWhile fun a => !a.isSpread).zipIdx

section

variable {s s' : Signature} {index : Nat} {args : List Arg}

theorem argumentMismatch_alike (h : s.Alike s') {a : Arg} (hheld : HeldAlike [(a, index)] s s') :
    Option.Rel Mismatch.Alike (argumentMismatch s index a) (argumentMismatch s' index a) := by
  have htype := parameterType_alike h index
  have hfits := hheld (a, index) List.mem_cons_self
  unfold argumentMismatch
  dsimp only at hfits
  generalize parameterType s index = type, parameterType s' index = type', Literal.of? a.value = l
    at htype hfits ⊢
  cases htype with
  | none => exact .none
  | @some type type' htype =>
    cases l with
    | none => exact .none
    | some l =>
      have hsame : l.fits type = l.fits type' :=
        htype.elim (hfits l rfl type rfl type' rfl) (congrArg l.fits)
      simp only [hsame]
      split
      · exact .none
      · exact .some (.argument index l.display type type')

theorem argumentsMismatch_alike (h : s.Alike s')
    (hheld : HeldAlike ((args.takeWhile fun a => !a.isSpread).zipIdx index) s s') :
    Option.Rel Mismatch.Alike (argumentsMismatch s index args) (argumentsMismatch s' index args) := by
  induction args generalizing index with
  | nil => exact .none
  | cons a rest ih =>
    rw [argumentsMismatch, argumentsMismatch]
    by_cases hspread : a.isSpread = true
    · rw [if_pos hspread, if_pos hspread]
      exact .none
    · rw [if_neg hspread, if_neg hspread]
      rw [List.takeWhile_cons_of_pos (by simpa using hspread), List.zipIdx_cons] at hheld
      obtain ⟨hfirst, hrest⟩ := List.forall_mem_cons.mp hheld
      have ha : Option.Rel Mismatch.Alike (argumentMismatch s index a) (argumentMismatch s' index a) :=
        argumentMismatch_alike h (List.forall_mem_singleton.mpr hfirst)
      generalize argumentMismatch s index a = m, argumentMismatch s' index a = m' at ha ⊢
      cases ha with
      | none => exact ih hrest
      | some hm => exact .some hm

/-- **One signature refuses a call for a reason of the same kind.** -/
theorem mismatch_alike (h : s.Alike s') (hheld : HeldAlike (heldArgs args) s s') :
    Option.Rel Mismatch.Alike (mismatch s args) (mismatch s' args) := by
  have hcount : acceptsCount s args.length = acceptsCount s' args.length := by
    rw [acceptsCount, acceptsCount, minArgs_alike h, maxArgs_alike h]
  rw [mismatch, mismatch, hcount]
  split
  · rw [minArgs_alike h, maxArgs_alike h]
    exact .some (.arity _ _ _)
  · exact argumentsMismatch_alike h hheld

variable {overloads overloads' : List Signature}

theorem firstAccepting_alike (h : List.Forall₂ Signature.Alike overloads overloads')
    (hheld : List.Forall₂ (HeldAlike (heldArgs args)) overloads overloads') :
    Option.Rel (fun found found' => found.1 = found'.1 ∧ found.2.Alike found'.2)
      (firstAccepting args index overloads) (firstAccepting args index overloads') := by
  induction h generalizing index with
  | nil => exact .none
  | @cons s s' _ _ hs _ ih =>
    obtain ⟨hfirst, hrest⟩ := List.forall₂_cons.mp hheld
    have hm := mismatch_alike hs hfirst
    rw [firstAccepting, firstAccepting]
    generalize mismatch s args = m, mismatch s' args = m' at hm ⊢
    cases hm with
    | none => exact .some ⟨rfl, hs⟩
    | some _ => exact ih hrest

theorem refusal_alike (h : List.Forall₂ Signature.Alike overloads overloads')
    (hheld : List.Forall₂ (HeldAlike (heldArgs args)) overloads overloads') :
    (refusal overloads args).Alike (refusal overloads' args) := by
  match h, hheld with
  | .nil, _ => exact .noOverload
  | .cons _ (.cons _ _), _ => exact .noOverload
  | .cons (a := s) (b := s') hs .nil, .cons hheld _ =>
    have hm := mismatch_alike hs hheld
    rw [refusal, refusal]
    generalize mismatch s args = m, mismatch s' args = m' at hm ⊢
    cases hm with
    | none => exact .noOverload
    | some hm => exact hm

/-- **Alike overloads are selected alike**, as far as literals are held alike against them. -/
theorem select_alike (h : List.Forall₂ Signature.Alike overloads overloads')
    (hheld : List.Forall₂ (HeldAlike (heldArgs args)) overloads overloads') :
    SelectsAlike (select overloads args) (select overloads' args) := by
  have hfound := @firstAccepting_alike 0 args overloads overloads' h hheld
  rw [select, select]
  generalize firstAccepting args 0 overloads = found, firstAccepting args 0 overloads' = found'
    at hfound ⊢
  cases hfound with
  | none => exact .error (refusal_alike h hheld)
  | @some found found' hfound =>
    obtain ⟨index, s⟩ := found
    obtain ⟨index', s'⟩ := found'
    obtain ⟨rfl, hs⟩ := hfound
    exact .ok index hs

end

/-! ### Declarations -/

theorem declarationsOf_read {name text : String} {edition : Edition} {body : List Stmt}
    (h : Script.read text = .ok body) :
    declarationsOf (.read name text edition) = body.filterMap declarationOf := by
  rw [declarationsOf, Script.File.read, h]

/-- **Comments change nothing but the text of types.** Every text that is read falls into parts in one
way, and any of its comments may become spaces. Then it is read as well, and a call has the same
overloads but for comments in their types. It takes the same one of them or is refused for a reason of
the same kind, as long as its literals are held alike against the types with a slash in them; where
these have no quotes, they let every literal pass. -/
theorem overloads_spaced {text : String} (hread : (Script.read text).isOk = true) :
    (∃! segs, AreCut segs ∧ written segs = text.toList ∧ ∀ s ∈ segs, s.isKept = false) ∧
    (∀ text', IsSpaced text text' → (Script.read text').isOk = true ∧
      ∀ (name : String) (edition : Edition) (isLocal : String → Bool) (callee : Expr),
        Option.Rel
          (fun overloads overloads' => List.Forall₂ Signature.Alike overloads overloads' ∧
            ∀ args, List.Forall₂ (HeldAlike (heldArgs args)) overloads overloads' →
              SelectsAlike (select overloads args) (select overloads' args))
          (overloads? (bind [.read name text edition]) isLocal callee)
          (overloads? (bind [.read name text' edition]) isLocal callee)) ∧
    ∀ type : String, '/' ∈ type.toList → '"' ∉ type.toList → '\'' ∉ type.toList →
      ∀ l : Literal, l.fits type = true := by
  rcases hbody : Script.read text with r | body
  · rw [hbody] at hread
    cases hread
  refine ⟨Script.existsUnique_cut_of_read hbody, fun text' hspaced => ?_, fun type => fits_of_slash⟩
  obtain ⟨body', hbody', hstmts⟩ := Script.read_spaced hspaced hbody
  refine ⟨by rw [hbody']; rfl, fun name edition isLocal callee => ?_⟩
  have htables : Table.Alike (bind [.read name text edition]) (bind [.read name text' edition]) := by
    rw [bind, bind, List.flatMap_singleton, List.flatMap_singleton, declarationsOf_read hbody,
      declarationsOf_read hbody']
    exact Table.Alike.declareAll (List.rel_filterMap (fun _ _ hs => hs) hstmts) .nil
  have hcalled := htables.overloads? isLocal callee
  generalize overloads? (bind [.read name text edition]) isLocal callee = called,
    overloads? (bind [.read name text' edition]) isLocal callee = called' at hcalled ⊢
  cases hcalled with
  | none => exact .none
  | some h => exact .some ⟨h, fun _ hheld => select_alike h hheld⟩

/-- The parts of a text without quotes and comments. -/
def plain (text : String) : List Segment := text.toList.map .char

/-- A function with comments among its parameters, and a call that it refuses with and without them. -/
theorem log_overloads_spaced :
    let text := "declare function log(a: 'x' /* y */, /* z */ b: string); //"
    let text' := "declare function log(a: 'x'  ,   b: string);  "
    let params (type : String) : List Param :=
      [⟨"a", false, false, some type⟩, ⟨"b", false, false, some "string"⟩]
    let s : Signature := ⟨"log", params "'x' /* y */", none⟩
    let s' : Signature := ⟨"log", params "'x'  ", none⟩
    let called (text : String) : Option (List Signature) :=
      overloads? (bind [.read "globals.d.ts" text .es5]) (fun _ => false) (.ident ⟨"log", ⟨0, 3⟩⟩)
    let args := argsIn "log('x', 1);"
    (Script.read text).isOk = true ∧ IsSpaced text text' ∧ called text = some [s] ∧
      called text' = some [s'] ∧ SelectsAlike (select [s] args) (select [s'] args) := by
  intro text text' params s s' called args
  have hread : (Script.read text).isOk = true := by decide +kernel
  have hspaced : IsSpaced text text' := by
    refine ⟨plain "declare function log(a: " ++ .quoted '\'' ['x'] :: .char ' ' ::
      .block " y ".toList false :: plain ", " ++ .block " z ".toList false ::
        plain " b: string); " ++ [.line [] false], ?_, ?_, ?_⟩
    · decide +kernel
    · decide +kernel
    · decide +kernel
  have hcalled : called text = some [s] := by decide +kernel
  have hcalled' : called text' = some [s'] := by decide +kernel
  obtain ⟨-, halike⟩ := (overloads_spaced hread).2.1 text' hspaced
  have halike := halike "globals.d.ts" .es5 (fun _ => false) (.ident ⟨"log", ⟨0, 3⟩⟩)
  change Option.Rel _ (called text) (called text') at halike
  rw [hcalled, hcalled'] at halike
  obtain ⟨-, hselects⟩ := halike
  have hheld : HeldAlike (heldArgs args) s s' := by decide +kernel
  exact ⟨hread, hspaced, hcalled, hcalled', hselects args (.cons hheld .nil)⟩

/-- A comment behind a type lifts the type, and one that ends with a quote makes another literal of it. -/
theorem commented_type_lifted :
    let text := "declare function f(x: string /* a */): void;"
    let text' := "declare function f(x: string  ): void;"
    let args := argsIn "f(true);"
    IsSpaced text text' ∧ (Script.read text).isOk = true ∧
      (select (overloadsIn text "f") args).map (·.1) = .ok 0 ∧
      select (overloadsIn text' "f") args = .error (.argument 0 "true" "string") ∧
      select (overloadsIn "declare function f(x: \"a\" // \"\n): void;" "f") (argsIn "f('a');") =
        .error (.argument 0 "\"a\"" "\"a\" // \"") := by
  refine ⟨⟨plain "declare function f(x: string " ++ .block " a ".toList false :: plain "): void;", ?_⟩,
    ?_⟩
  · decide +kernel
  · decide +kernel

end LuaSnippet.Globals
