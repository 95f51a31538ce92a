import LuaSnippet.Session.Supply
import LuaSnippet.Proofs.Folding

/-!
# How many names a disk can supply

A disk holds finitely many files, and only so many folded names lead to any of them: each file of
the folder is reached through a mount in at most three spellings, and as a library file in as many
again. So a run can be handed out only finitely many files, however they refer to one another.
-/

namespace LuaSnippet

open LuaSnippet.Path (IsName IsFolded parts)

/-! ### Following names down a folder -/

namespace Folder

variable {α : Type} {d : Folder α} {p q : Place}

theorem follow_eq_some {part : List Char} (hq : d.follow p part = some q) :
    (Path.stepOf part = none ∧ q = p) ∨ (Path.stepOf part = some .up ∧ p ≠ [] ∧ q = p.dropLast) ∨
      ∃ name, Path.stepOf part = some (.down name) ∧ q = p ++ [name] := by
  unfold follow at hq
  split at hq
  · simp at hq
  · cases hstep : Path.stepOf part with
    | none =>
      rw [hstep] at hq
      exact .inl ⟨rfl, (Option.some.inj hq).symm⟩
    | some s =>
      rw [hstep] at hq
      cases s with
      | up =>
        simp only [List.isEmpty_iff] at hq
        by_cases hp : p = []
        · rw [if_pos hp] at hq
          simp at hq
        · rw [if_neg hp] at hq
          exact .inr (.inl ⟨rfl, hp, (Option.some.inj hq).symm⟩)
      | down name =>
        simp only at hq
        split at hq
        · exact .inr (.inr ⟨name, rfl, (Option.some.inj hq).symm⟩)
        · simp at hq

theorem foldlM_follow_of_isName {ps : List (List Char)} (hps : ∀ part ∈ ps, IsName part)
    (hq : ps.foldlM d.follow p = some q) : q = p ++ ps.map String.ofList := by
  induction ps generalizing p with
  | nil =>
    rw [List.foldlM_nil] at hq
    simp [Option.some.inj hq]
  | cons part ps ih =>
    rw [List.foldlM_cons, Option.bind_eq_bind, Option.bind_eq_some_iff] at hq
    obtain ⟨p', hfirst, hrest⟩ := hq
    have hpart : Path.stepOf part = some (.down (String.ofList part)) := hps part List.mem_cons_self
    have hp' : p' = p ++ [String.ofList part] := by
      rcases follow_eq_some hfirst with ⟨hstep, -⟩ | ⟨hstep, -⟩ | ⟨name, hstep, rfl⟩
      · simp [hpart] at hstep
      · simp [hpart] at hstep
      · rw [hpart, Option.some.injEq, Path.Step.down.injEq] at hstep
        rw [hstep]
    rw [ih (fun part h => hps part (List.mem_cons_of_mem _ h)) hrest, hp']
    simp

/-- The text that leads down through some names. -/
def descent (names : List String) : List Char :=
  ['/'].intercalate (names.map (·.toList))

/-- The three texts that lead from a place to another, if any does: down from there, down after
naming the place itself, or down after a climb. -/
def approaches (p q : Place) : List (List Char) :=
  [descent (q.drop p.length), descent ("." :: q.drop p.length),
    descent (".." :: q.drop (p.length - 1))]

theorem descent_map_ofList (ps : List (List Char)) :
    descent (ps.map String.ofList) = ['/'].intercalate ps := by
  unfold descent
  rw [List.map_map]
  simp [Function.comp_def]

theorem descent_cons_map_ofList (name : String) (ps : List (List Char)) :
    descent (name :: ps.map String.ofList) = ['/'].intercalate (name.toList :: ps) := by
  rw [← descent_map_ofList, List.map_cons, String.ofList_toList]

theorem mem_approaches_of_locate {r : String} (hr : r.toList.head? ≠ some '/')
    (htail : ∀ part ∈ (parts r.toList).tail, IsName part) (hq : d.locate p r = some q) :
    r.toList ∈ approaches p q := by
  obtain ⟨first, rest, hparts⟩ := List.exists_cons_of_ne_nil (Path.parts_ne_nil r.toList)
  have htext : r.toList = ['/'].intercalate (first :: rest) := by
    rw [← hparts, Path.intercalate_parts]
  unfold locate at hq
  rw [hparts, List.foldlM_cons, Option.bind_eq_bind, Option.bind_eq_some_iff] at hq
  obtain ⟨p', hfirst, hrest⟩ := hq
  rw [hparts, List.tail_cons] at htail
  have hq' := foldlM_follow_of_isName htail hrest
  unfold approaches
  rcases follow_eq_some hfirst with ⟨hstep, rfl⟩ | ⟨hstep, hp, rfl⟩ | ⟨name, hstep, rfl⟩
  · have hdrop : q.drop p'.length = rest.map String.ofList := by
      rw [hq', List.drop_left]
    have hidle : first = [] ∨ first = ['.'] := by
      unfold Path.stepOf at hstep
      split at hstep
      · assumption
      · split at hstep <;> simp at hstep
    rcases hidle with rfl | rfl
    · -- only the empty text starts with an empty part and not with a slash
      cases rest with
      | nil =>
        rw [htext, hdrop]
        exact List.mem_cons_self
      | cons part rest =>
        rw [htext, List.intercalate_cons_cons] at hr
        exact absurd rfl hr
    · rw [htext, hdrop, descent_cons_map_ofList]
      exact List.mem_cons_of_mem _ List.mem_cons_self
  · have hfirst' : first = ['.', '.'] := by
      unfold Path.stepOf at hstep
      split at hstep
      · simp at hstep
      · split at hstep
        · assumption
        · simp at hstep
    have hdrop : q.drop (p.length - 1) = rest.map String.ofList := by
      rw [hq', ← List.length_dropLast, List.drop_left]
    rw [htext, hdrop, descent_cons_map_ofList, hfirst']
    exact List.mem_cons_of_mem _ (List.mem_cons_of_mem _ List.mem_cons_self)
  · have hname : name = String.ofList first := by
      unfold Path.stepOf at hstep
      split at hstep
      · simp at hstep
      · split at hstep
        · simp at hstep
        · simpa using hstep.symm
    have hdrop : q.drop p.length = (first :: rest).map String.ofList := by
      rw [hq', List.append_assoc, List.drop_left, hname]
      rfl
    rw [htext, hdrop, descent_map_ofList]
    exact List.mem_cons_self

theorem mem_files_of_file? {a : α} (hq : d.file? q = some a) : ∃ f ∈ d.files, f.1 = q := by
  unfold file? at hq
  rw [Option.map_eq_some_iff] at hq
  obtain ⟨f, hfind, -⟩ := hq
  exact ⟨f, List.mem_of_find?_eq_some hfind, by simpa using List.find?_some hfind⟩

end Folder

/-! ### Names through a mount -/

namespace Session

open Folder (approaches descent)

/-- The texts that lead to files through a mount if they are put behind `front`: those that leave an
approach to the file behind the opening of the mount, and where the opening ends within `front`, the
one that leads down from where the rest of `front` leads. -/
def Mount.namesBehind (m : Mount) (d : Folder String) (front : List Char) : List String :=
  d.files.flatMap fun f =>
    if front.length ≤ m.opening.length then
      (approaches m.place f.1).map fun r => String.ofList (m.opening.toList.drop front.length ++ r)
    else
      let inner := (front.drop m.opening.length).dropLast
      let base := (d.locate m.place (String.ofList inner)).getD []
      [String.ofList (descent (f.1.drop base.length))]

theorem Mount.length_namesBehind_le (m : Mount) (d : Folder String) (front : List Char) :
    (m.namesBehind d front).length ≤ 3 * d.files.length := by
  unfold namesBehind
  induction d.files with
  | nil => simp
  | cons f files ih =>
    rw [List.flatMap_cons, List.length_append, List.length_cons]
    have hone : (if front.length ≤ m.opening.length then
        (approaches m.place f.1).map fun r => String.ofList (m.opening.toList.drop front.length ++ r)
      else
        let inner := (front.drop m.opening.length).dropLast
        let base := (d.locate m.place (String.ofList inner)).getD []
        [String.ofList (descent (f.1.drop base.length))]).length ≤ 3 := by
      split <;> simp [approaches]
    omega

theorem Mount.exists_of_read? {m : Mount} {d : Folder String} {path text : String}
    (hread : m.read? d path = some text) :
    ∃ r : String, path.toList = m.opening.toList ++ r.toList ∧ r.toList.head? ≠ some '/' ∧
      ∃ f ∈ d.files, d.locate m.place r = some f.1 := by
  unfold read? at hread
  rw [Option.bind_eq_some_iff] at hread
  obtain ⟨r, hrest, hread⟩ := hread
  unfold Folder.read? at hread
  rw [Option.bind_eq_some_iff] at hread
  obtain ⟨q, hlocate, hfile⟩ := hread
  obtain ⟨f, hf, rfl⟩ := Folder.mem_files_of_file? hfile
  unfold rest? at hrest
  split at hrest
  next hopen =>
    obtain ⟨rest, hpath⟩ := List.isPrefixOf_iff_prefix.mp hopen
    simp only at hrest
    split at hrest
    · simp at hrest
    next hslash =>
      rw [Option.some.injEq] at hrest
      rw [← hpath, ← String.length_toList, List.drop_left] at hslash hrest
      refine ⟨r, ?_, ?_, f, hf, hlocate⟩
      · rw [← hrest, String.toList_ofList, hpath]
      · rw [← hrest, String.toList_ofList]
        exact hslash
  · simp at hrest

/-- A folded name that leads to a file through a mount is one of those for the text before it. -/
theorem Mount.mem_namesBehind {m : Mount} {d : Folder String} {front : List Char}
    {path name text : String} (hpath : path.toList = front ++ name.toList) (hname : IsFolded name)
    (hfront : front ≠ [] → front.getLast? = some '/' ∧ ∀ part ∈ parts name.toList, IsName part)
    (hread : m.read? d path = some text) : name ∈ m.namesBehind d front := by
  obtain ⟨r, hr, hslash, f, hf, hlocate⟩ := exists_of_read? hread
  rw [hpath] at hr
  refine List.mem_flatMap.mpr ⟨f, hf, ?_⟩
  by_cases hlen : front.length ≤ m.opening.length
  · -- the opening ends behind the front, so that what is left is left of the name
    rw [if_pos hlen]
    have hcut : name.toList = m.opening.toList.drop front.length ++ r.toList := by
      have := congrArg (List.drop front.length) hr
      rwa [List.drop_left, List.drop_append_of_le_length (by rwa [String.length_toList])] at this
    refine List.mem_map.mpr ⟨r.toList, ?_, ?_⟩
    · exact Folder.mem_approaches_of_locate hslash (hname.isName_of_append hcut hslash) hlocate
    · rw [← hcut, String.ofList_toList]
  · rw [if_neg hlen]
    have hne : front ≠ [] := by
      rintro rfl
      simp at hlen
    obtain ⟨hlast, hparts⟩ := hfront hne
    have hr' : r.toList = front.drop m.opening.length ++ name.toList := by
      have := congrArg (List.drop m.opening.length) hr
      rw [List.drop_append_of_le_length (by omega), ← String.length_toList, List.drop_left] at this
      rw [← String.length_toList]
      exact this.symm
    have hinner : front.drop m.opening.length =
        (front.drop m.opening.length).dropLast ++ ['/'] := by
      have hlast' : (front.drop m.opening.length).getLast? = some '/' := by
        rw [List.getLast?_drop, if_neg (by omega)]
        exact hlast
      obtain ⟨inner, heq⟩ := List.getLast?_eq_some_iff.mp hlast'
      rw [heq, List.dropLast_concat]
    have hq := hlocate
    unfold Folder.locate at hq
    rw [hr', hinner, List.append_assoc, List.singleton_append, Path.parts_append_slash,
      List.foldlM_append, Option.bind_eq_bind, Option.bind_eq_some_iff] at hq
    obtain ⟨base, hbase, hrest⟩ := hq
    have hplace := Folder.foldlM_follow_of_isName hparts hrest
    have hbase' : d.locate m.place (String.ofList (front.drop m.opening.length).dropLast) =
        some base := by
      unfold Folder.locate
      rw [String.toList_ofList]
      exact hbase
    simp only [hbase', Option.getD_some, List.mem_singleton]
    rw [hplace, List.drop_left, Folder.descent_map_ofList, Path.intercalate_parts,
      String.ofList_toList]

/-! ### Names on a disk -/

/-- The texts that lead to files if they are put behind `front`. -/
def Disk.namesBehind (disk : Disk) (front : List Char) : List String :=
  disk.written.map (fun f => String.ofList (f.1.toList.drop front.length)) ++
    disk.mounts.flatMap fun m => m.namesBehind disk.folder front

theorem Disk.length_namesBehind_le (disk : Disk) (front : List Char) :
    (disk.namesBehind front).length ≤ disk.size := by
  have hmounts : (disk.mounts.flatMap fun m => m.namesBehind disk.folder front).length ≤
      3 * (disk.mounts.length * disk.folder.files.length) := by
    induction disk.mounts with
    | nil => simp
    | cons m mounts ih =>
      have hone := m.length_namesBehind_le disk.folder front
      rw [List.flatMap_cons, List.length_append, List.length_cons, Nat.add_mul]
      omega
  unfold namesBehind size
  rw [List.length_append, List.length_map]
  omega

theorem Disk.mem_namesBehind {disk : Disk} {front : List Char} {path name text : String}
    (hpath : path.toList = front ++ name.toList) (hname : IsFolded name)
    (hfront : front ≠ [] → front.getLast? = some '/' ∧ ∀ part ∈ parts name.toList, IsName part)
    (hread : disk.read? path = some text) : name ∈ disk.namesBehind front := by
  unfold read? at hread
  rw [Option.or_eq_some_iff] at hread
  refine List.mem_append.mpr ?_
  rcases hread with hwritten | ⟨-, hmounted⟩
  · left
    unfold written? at hwritten
    obtain ⟨f, hfind, -⟩ := Option.map_eq_some_iff.mp hwritten
    refine List.mem_map.mpr ⟨f, List.mem_of_find?_eq_some hfind, ?_⟩
    have hf : f.1 = path := by simpa using List.find?_some hfind
    rw [hf, hpath, List.drop_left, String.ofList_toList]
  · right
    unfold mounted? at hmounted
    obtain ⟨m, hm, hread⟩ := List.exists_of_findSome?_eq_some hmounted
    exact List.mem_flatMap.mpr ⟨m, hm, Mount.mem_namesBehind hpath hname hfront hread⟩

/-! ### Names of a session -/

/-- What stands before the names of library files in their paths. -/
def libraryFront (library : String) : List Char :=
  if library = "" ∨ library.toList.getLast? = some '/' then library.toList
  else library.toList ++ ['/']

/-- Every folded name that a disk can supply a file for. -/
def suppliedNames (library : String) (disk : Disk) : List String :=
  disk.namesBehind [] ++ disk.namesBehind (libraryFront library)

theorem length_suppliedNames_le (library : String) (disk : Disk) :
    (suppliedNames library disk).length ≤ 2 * disk.size := by
  have hdirect := disk.length_namesBehind_le []
  have hlibrary := disk.length_namesBehind_le (libraryFront library)
  unfold suppliedNames
  rw [List.length_append]
  omega

theorem libraryFront_getLast? {library : String} (hne : libraryFront library ≠ []) :
    (libraryFront library).getLast? = some '/' := by
  unfold libraryFront at hne ⊢
  split at hne
  next hplain =>
    rw [if_pos hplain]
    rcases hplain with rfl | hlast
    · exact absurd rfl hne
    · exact hlast
  next hplain =>
    rw [if_neg hplain]
    simp

theorem toList_joinText (library : String) {name : String} (hname : name.toList.head? ≠ some '/') :
    (Path.joinText library name).toList = libraryFront library ++ name.toList := by
  unfold Path.joinText libraryFront
  rw [if_neg hname]
  split <;> simp

theorem isName_of_mem_parts {name : String} (hname : IsFolded name) {c : Char} {cs : List Char}
    (hc : c ≠ '/' ∧ c ≠ '.') (hcs : name.toList = c :: cs) :
    ∀ part ∈ parts name.toList, IsName part := by
  obtain ⟨p, ps, hp⟩ := List.exists_cons_of_ne_nil (Path.parts_ne_nil cs)
  have hparts : parts name.toList = (c :: p) :: ps := by
    rw [hcs]
    exact Path.parts_cons_of_ne hc.1 hp
  have htail := hname.isName_of_append (a := []) (r := name.toList) rfl (by simp [hcs, hc.1])
  rw [hparts] at htail ⊢
  intro part hpart
  rcases List.mem_cons.mp hpart with rfl | hpart
  · unfold IsName Path.stepOf
    rw [if_neg (by simp [hc.2]), if_neg (by simp [hc.2])]
  · exact htail part hpart

/-- **A disk supplies finitely many folded names**: every one whose path can be read is listed. -/
theorem mem_suppliedNames {library : String} {disk : Disk} {name text : String}
    (hname : IsFolded name) (hread : disk.read? (pathOf library name) = some text) :
    name ∈ suppliedNames library disk := by
  unfold pathOf at hread
  split at hread
  next hlib =>
    obtain ⟨rest, hrest⟩ := List.isPrefixOf_iff_prefix.mp hlib
    have hcs : name.toList = 'l' :: ("ib.".toList ++ rest) := by rw [← hrest]; rfl
    refine List.mem_append.mpr (.inr (Disk.mem_namesBehind ?_ hname (fun hne => ⟨?_, ?_⟩) hread))
    · exact toList_joinText library (by simp [hcs])
    · exact libraryFront_getLast? hne
    · exact isName_of_mem_parts hname (by decide) hcs
  · exact List.mem_append.mpr (.inl (Disk.mem_namesBehind rfl hname (fun hne => absurd rfl hne) hread))

end Session

end LuaSnippet
