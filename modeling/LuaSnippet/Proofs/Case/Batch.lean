import Mathlib.Data.List.Forall2
import LuaSnippet.Case.Batch
import LuaSnippet.Report.Basic
import LuaSnippet.Proofs.Session.Transparency

/-!
# Batches are complete, ordered and fair

A batch has one result for each case and each dialect that the case is tried for, in the order of
the files, of the cases in them and of the dialects. All attempts share one session, but since a
session carries nothing from one run to the next but texts that the disk holds as well, each of them
comes to what it comes to alone; an attempt that is left out does not touch the session at all.
-/

namespace LuaSnippet

open Session (Disk Declarations Step World)

/-! ### What one run leaves of a session -/

namespace Session

variable {s : Session} {disk : Disk}

theorem coherent_run (hs : s.store.Coherent s.library disk) (d : Dialect) (snippet : String) :
    (s.run disk d snippet).2.store.Coherent (s.run disk d snippet).2.library disk := by
  rw [run_snd]
  exact hs.askAll _

theorem forget_run (s : Session) (disk : Disk) (d : Dialect) (snippet : String) :
    (s.run disk d snippet).2.forget = s.forget := by
  rw [run_snd]
  simp only [forget]

variable {library : String} {emit : Program → Emission} {w : World}

theorem World.Steady.coherent_session (hw : Steady disk library emit w) :
    w.session.store.Coherent w.session.library disk := by
  rw [hw.library_eq]
  exact hw.coherent

theorem World.Steady.fresh_session (hw : Steady disk library emit w) :
    (fresh disk library emit w.session.declarations).session = w.session.forget := by
  rw [← hw.library_eq, ← hw.emit_eq]
  rfl

end Session

/-- A case comes to the same in a session and in one with the same settings that keeps nothing. -/
theorem Case.check_fst_eq_forget (c : Case) {s : Session} {disk : Disk}
    (hs : s.store.Coherent s.library disk) (file : String) (d : Dialect) :
    (c.check s disk file d).1 = (c.check s.forget disk file d).1 := by
  simp only [check, Session.run_fst_eq_forget hs]

/-! ### Verdicts and their numbers -/

/-- Whether a verdict is that of a case that was left out. -/
def Verdict.isOmitted : Verdict → Bool
  | omitted _ => true
  | _ => false

theorem Case.isOmitted_judge (c : Case) (d : Dialect)
    (outcome : Except Session.Failure String) : (c.judge d outcome).isOmitted = false := by
  unfold judge judgeText
  repeat' split
  all_goals simp [Verdict.isOmitted]

namespace Report.Counts

/-- How many verdicts were counted. -/
def total (n : Counts) : Nat :=
  n.passed + n.failed + n.omitted

theorem total_add (n : Counts) (v : Verdict) : (n.add v).total = n.total + 1 := by
  cases v <;> simp only [add, total] <;> omega

theorem total_of (results : List Result) : (of results).total = results.length := by
  suffices h : ∀ n : Counts,
      (results.foldl (fun n r => n.add r.verdict) n).total = n.total + results.length by
    rw [of, h]
    simp [total]
  induction results with
  | nil => intro n; rfl
  | cons r results ih =>
    intro n
    rw [List.foldl_cons, ih, total_add, List.length_cons]
    omega

end Report.Counts

/-! ### Entries of files -/

namespace CaseFile

/-- The cases of a file are known. -/
def IsSound (f : CaseFile) : Prop :=
  ∃ cases, f.cases = .ok cases

/-- The entries of a file; one that is at fault has none. -/
def entries (f : CaseFile) : List Entry :=
  (f.cases.toOption.getD []).map (⟨f.path, ·⟩)

theorem exists_fault {f : CaseFile} (hf : ¬ f.IsSound) : ∃ fault, f.cases = .error fault := by
  cases hcases : f.cases with
  | error fault => exact ⟨fault, rfl⟩
  | ok cases => exact absurd ⟨cases, hcases⟩ hf

end CaseFile

namespace Batch

theorem entries_of_sound {files : List CaseFile} (hfiles : ∀ f ∈ files, f.IsSound) :
    entries files = .ok (files.flatMap CaseFile.entries) := by
  induction files with
  | nil => rfl
  | cons f files ih =>
    obtain ⟨cases, hcases⟩ := hfiles f List.mem_cons_self
    have hrest := ih fun g hg => hfiles g (List.mem_cons_of_mem _ hg)
    simp only [entries, hcases, hrest, List.flatMap_cons, CaseFile.entries, Except.toOption,
      Option.getD_some]

theorem entries_of_fault {before behind : List CaseFile} {f : CaseFile} {fault : CaseFile.Fault}
    (hbefore : ∀ g ∈ before, g.IsSound) (hf : f.cases = .error fault) :
    entries (before ++ f :: behind) = .error fault := by
  induction before with
  | nil => simp only [List.nil_append, entries, hf]
  | cons g before ih =>
    obtain ⟨cases, hcases⟩ := hbefore g List.mem_cons_self
    have hrest := ih fun h hh => hbefore h (List.mem_cons_of_mem _ hh)
    simp only [List.cons_append, entries, hcases, hrest]

theorem exists_first_fault {files : List CaseFile} (hfiles : ∃ f ∈ files, ¬ f.IsSound) :
    ∃ before f behind fault, files = before ++ f :: behind ∧ (∀ g ∈ before, g.IsSound) ∧
      f.cases = .error fault := by
  induction files with
  | nil => simp at hfiles
  | cons g files ih =>
    by_cases hg : g.IsSound
    · have hrest : ∃ f ∈ files, ¬ f.IsSound := by
        obtain ⟨f, hmem, hf⟩ := hfiles
        rcases List.mem_cons.mp hmem with rfl | hmem
        · exact absurd hg hf
        · exact ⟨f, hmem, hf⟩
      obtain ⟨before, f, behind, fault, rfl, hbefore, hf⟩ := ih hrest
      refine ⟨g :: before, f, behind, fault, rfl, ?_, hf⟩
      intro h hh
      rcases List.mem_cons.mp hh with rfl | hh
      · exact hg
      · exact hbefore h hh
    · obtain ⟨fault, hfault⟩ := CaseFile.exists_fault hg
      exact ⟨[], g, files, fault, rfl, by simp, hfault⟩

/-! ### What is left out -/

/-- A case is left out of a batch with some entries: others are singled out, it is marked, or the
filter does not match it. -/
def LeftOut (es : List Entry) (filter : Option String) (c : Case) : Prop :=
  ((∃ e ∈ es, e.case.only = true) ∧ c.only = false) ∨ c.skip = true ∨
    ∃ f ∈ filter, c.matchesFilter f = false

instance (es : List Entry) (filter : Option String) (c : Case) :
    Decidable (LeftOut es filter c) :=
  inferInstanceAs (Decidable (_ ∨ _ ∨ _))

theorem hasOnly_iff (es : List Entry) : hasOnly es = true ↔ ∃ e ∈ es, e.case.only = true := by
  simp [hasOnly]

theorem omission_eq_none_iff (es : List Entry) (filter : Option String) (c : Case) :
    c.omission (hasOnly es) filter = none ↔ ¬ LeftOut es filter c := by
  unfold Case.omission LeftOut
  rw [← hasOnly_iff]
  cases hasOnly es <;> cases c.only <;> cases c.skip <;> cases filter <;> simp

/-! ### Attempts -/

/-- The attempts that some entries ask for: each entry in every dialect that it is tried for. -/
def attempts (es : List Entry) : List (Entry × Dialect) :=
  es.flatMap fun e => (dialectsOf e.case).map fun d => (e, d)

/-- The session after an attempt. -/
def afterAttempt (disk : Disk) (s : Session) (p : Entry × Dialect) : Session :=
  (s.run disk p.2 p.1.case.input).2

/-- What the result of an attempt is, in a batch with some entries, if `fresh` is a session that
keeps nothing. -/
structure Settled (fresh : Session) (disk : Disk) (es : List Entry) (filter : Option String)
    (p : Entry × Dialect) (r : Result) : Prop where
  file_eq : r.file = p.1.file
  name_eq : r.name = p.1.case.name
  dialect_eq : r.dialect = p.2
  omitted_iff : r.verdict.isOmitted = true ↔ LeftOut es filter p.1.case
  /-- A case that is left out is told why. -/
  verdict_eq : ∀ o, p.1.case.omission (hasOnly es) filter = some o → r.verdict = .omitted o.message
  /-- A case that is tried comes to what it comes to alone. -/
  eq_check : ¬ LeftOut es filter p.1.case → r = (p.1.case.check fresh disk p.1.file p.2).1

/-- Some attempts of a batch, one after the other from a session: their results, and the session
behind them. -/
structure Stretch (disk : Disk) (es : List Entry) (filter : Option String)
    (ps : List (Entry × Dialect)) (s : Session) (r : List Result × Session) : Prop where
  session_eq : r.2 =
    (ps.filter fun p => ¬ LeftOut es filter p.1.case).foldl (afterAttempt disk) s
  settled : List.Forall₂ (Settled s.forget disk es filter) ps r.1

section

variable {disk : Disk} {es : List Entry} {filter : Option String} {s : Session}

theorem coherent_foldl (hs : s.store.Coherent s.library disk) (ps : List (Entry × Dialect)) :
    (ps.foldl (afterAttempt disk) s).store.Coherent (ps.foldl (afterAttempt disk) s).library
      disk := by
  induction ps generalizing s with
  | nil => exact hs
  | cons p ps ih => exact ih (Session.coherent_run hs p.2 p.1.case.input)

theorem forget_foldl (disk : Disk) (s : Session) (ps : List (Entry × Dialect)) :
    (ps.foldl (afterAttempt disk) s).forget = s.forget := by
  induction ps generalizing s with
  | nil => rfl
  | cons p ps ih =>
    rw [List.foldl_cons, ih, afterAttempt, Session.forget_run]

namespace Stretch

variable {ps qs : List (Entry × Dialect)} {r u : List Result × Session}

theorem coherent (hr : Stretch disk es filter ps s r) (hs : s.store.Coherent s.library disk) :
    r.2.store.Coherent r.2.library disk := by
  rw [hr.session_eq]
  exact coherent_foldl hs _

theorem forget_eq (hr : Stretch disk es filter ps s r) : r.2.forget = s.forget := by
  rw [hr.session_eq]
  exact forget_foldl disk s _

theorem nil (disk : Disk) (es : List Entry) (filter : Option String) (s : Session) :
    Stretch disk es filter [] s ([], s) :=
  ⟨rfl, .nil⟩

theorem append (hr : Stretch disk es filter ps s r) (hu : Stretch disk es filter qs r.2 u) :
    Stretch disk es filter (ps ++ qs) s (r.1 ++ u.1, u.2) where
  session_eq := by
    rw [List.filter_append, List.foldl_append, ← hr.session_eq]
    exact hu.session_eq
  settled := by
    have hbehind := hu.settled
    rw [hr.forget_eq] at hbehind
    exact List.rel_append hr.settled hbehind

theorem omitted (disk : Disk) {e : Entry} {o : Case.Omission}
    (ho : e.case.omission (hasOnly es) filter = some o) (s : Session) (d : Dialect) :
    Stretch disk es filter [(e, d)] s ([⟨e.file, e.case.name, d, .omitted o.message⟩], s) := by
  have hleft : LeftOut es filter e.case := by
    by_contra hnot
    rw [(omission_eq_none_iff es filter e.case).mpr hnot] at ho
    simp at ho
  refine ⟨?_, .cons ?_ .nil⟩
  · simp [hleft]
  · refine ⟨rfl, rfl, rfl, by simpa [Verdict.isOmitted] using hleft, ?_, ?_⟩
    · intro o' ho'
      rw [ho, Option.some.injEq] at ho'
      rw [ho']
    · intro hnot
      exact absurd hleft hnot

theorem checked {e : Entry} (ho : e.case.omission (hasOnly es) filter = none)
    (hs : s.store.Coherent s.library disk) (d : Dialect) :
    Stretch disk es filter [(e, d)] s
      ([(e.case.check s disk e.file d).1], (e.case.check s disk e.file d).2) := by
  have hnot : ¬ LeftOut es filter e.case := (omission_eq_none_iff es filter e.case).mp ho
  refine ⟨?_, .cons ?_ .nil⟩
  · simp only [hnot, not_false_eq_true, decide_true, List.filter_cons_of_pos, List.filter_nil,
      List.foldl_cons, List.foldl_nil, afterAttempt, Case.check]
  · refine ⟨rfl, rfl, rfl, ?_, ?_, ?_⟩
    · simp [Case.check, Case.isOmitted_judge, hnot]
    · intro o' ho'
      rw [ho] at ho'
      simp at ho'
    · intro _
      exact e.case.check_fst_eq_forget hs e.file d

end Stretch

theorem runEntry_stretch (e : Entry) (ds : List Dialect) (hs : s.store.Coherent s.library disk) :
    Stretch disk es filter (ds.map fun d => (e, d)) s
      (runEntry (e.case.omission (hasOnly es) filter) e disk ds s) := by
  induction ds generalizing s with
  | nil => exact .nil disk es filter s
  | cons d ds ih =>
    cases ho : e.case.omission (hasOnly es) filter with
    | some o =>
      have hfirst := Stretch.omitted disk ho s d
      rw [ho] at ih
      exact hfirst.append (ih hs)
    | none =>
      have hfirst := Stretch.checked ho hs d
      rw [ho] at ih
      exact hfirst.append (ih (hfirst.coherent hs))

theorem runEntries_stretch (rest : List Entry) (hs : s.store.Coherent s.library disk) :
    Stretch disk es filter (attempts rest) s (runEntries (hasOnly es) filter disk rest s) := by
  induction rest generalizing s with
  | nil => exact .nil disk es filter s
  | cons e rest ih =>
    have hfirst : Stretch disk es filter ((dialectsOf e.case).map fun d => (e, d)) s
        (runEntry (e.case.omission (hasOnly es) filter) e disk (dialectsOf e.case) s) :=
      runEntry_stretch e (dialectsOf e.case) hs
    exact hfirst.append (ih (hfirst.coherent hs))

end

/-! ### Batches -/

section

variable {disk : Disk} {files : List CaseFile}

theorem run_of_fault {before behind : List CaseFile} {f : CaseFile} {fault : CaseFile.Fault}
    (hbefore : ∀ g ∈ before, g.IsSound) (hf : f.cases = .error fault) (s : Session) (disk : Disk)
    (filter : Option String) : run s disk (before ++ f :: behind) filter = (.error fault, s) := by
  unfold run
  rw [entries_of_fault hbefore hf]

theorem run_of_sound (hfiles : ∀ f ∈ files, f.IsSound) {s : Session}
    (hs : s.store.Coherent s.library disk) (filter : Option String) :
    ∃ r, run s disk files filter = (.ok r.1, r.2) ∧
      Stretch disk (files.flatMap CaseFile.entries) filter
        (attempts (files.flatMap CaseFile.entries)) s r := by
  unfold run
  rw [entries_of_sound hfiles]
  exact ⟨_, rfl, runEntries_stretch _ hs⟩

end

/-- **Batches are complete, ordered and independent of sharing.** Take the case files in any folder
and any session on a disk that stays as it is. If a file is at fault, then the batch comes to the
first fault, and the session is left as it was. Otherwise there is one result for each case and each
of its dialects, file by file, case by case and dialect by dialect; exactly the cases that are to be
left out are, and those do not touch the session; every other case comes to what it comes to alone
in a session that keeps nothing; and the numbers of the report add up to the number of results. -/
theorem run_settled (disk : Disk) (library : String) (emit : Program → Emission)
    (declarations : Declarations) (steps : List Step)
    (hsteps : ∀ step ∈ steps, step.isSteady = true) (folder : Folder (Option String))
    (home path : String) (filter : Option String) :
    let s := ((World.fresh disk library emit declarations).after steps).session
    let fresh := (World.fresh disk library emit s.declarations).session
    let files := folder.caseFiles home path
    ((∃ f ∈ files, ¬ f.IsSound) →
      ∃ before f behind fault, files = before ++ f :: behind ∧ (∀ g ∈ before, g.IsSound) ∧
        f.cases = .error fault ∧ run s disk files filter = (.error fault, s)) ∧
    ((∀ f ∈ files, f.IsSound) →
      let es := files.flatMap CaseFile.entries
      let made := (attempts es).filter fun p => ¬ LeftOut es filter p.1.case
      ∃ results, run s disk files filter = (.ok results, made.foldl (afterAttempt disk) s) ∧
        List.Forall₂ (Settled fresh disk es filter) (attempts es) results ∧
        (Report.Counts.of results).total = results.length) := by
  intro s fresh files
  have hsteady : World.Steady disk library emit
      ((World.fresh disk library emit declarations).after steps) :=
    (World.steady_fresh disk library emit declarations).after hsteps
  have hs : s.store.Coherent s.library disk := hsteady.coherent_session
  have hfresh : fresh = s.forget := hsteady.fresh_session
  refine ⟨?_, ?_⟩
  · intro hfault
    obtain ⟨before, f, behind, fault, hsplit, hbefore, hf⟩ := exists_first_fault hfault
    refine ⟨before, f, behind, fault, hsplit, hbefore, hf, ?_⟩
    rw [hsplit]
    exact run_of_fault hbefore hf s disk filter
  · intro hsound es made
    obtain ⟨r, hrun, hr⟩ := run_of_sound hsound hs filter
    refine ⟨r.1, ?_, ?_, Report.Counts.total_of r.1⟩
    · rw [hrun, hr.session_eq]
    · rw [hfresh]
      exact hr.settled

/-- The text of a file with a case for one dialect. -/
def plainCase : String :=
  "- name: one\n  input: const z = x;\n  targets: ['5.1']\n"

/-- The text of a file that singles out its case. -/
def singledCase : String :=
  "- name: two\n  input: const y = x;\n  expected: local y = x\n  only: true\n"

/-- A folder with two case files; the one that comes second singles out its case. -/
def twoCaseFiles : Folder (Option String) :=
  .ofFiles [("a.yml", some plainCase), ("b/two.yaml", some singledCase)]

theorem caseFiles_twoCaseFiles : twoCaseFiles.caseFiles "home" "." =
    [⟨"home/./a.yml", some plainCase⟩, ⟨"home/./b/two.yaml", some singledCase⟩] := by
  have hcases : twoCaseFiles.casesFrom [] =
      [(["a.yml"], some plainCase), (["b", "two.yaml"], some singledCase)] := by
    unfold Folder.casesFrom
    apply List.mergeSort_of_pairwise
    decide +kernel
  have hplace : twoCaseFiles.locate [] "." = some [] := by decide +kernel
  have hroot : ".".toList.head? ≠ some '/' := by decide
  rw [Folder.caseFiles, if_neg hroot, hplace]
  simp only [hcases]
  decide +kernel

/-- After failed runs, the case in the first file is left out for one that comes behind it, which
fails where no declaration file is set. -/
theorem twoCaseFiles_run_settled :
    let s := ((World.fresh Session.twoFiles "lib" Program.emit fun _ => none).after
      Session.failingSteps).session
    let fresh := (World.fresh Session.twoFiles "lib" Program.emit s.declarations).session
    let files := twoCaseFiles.caseFiles "home" "."
    let es := files.flatMap CaseFile.entries
    let unmapped (d : Dialect) : String := (Session.Failure.unmapped d).message
    (∀ step ∈ Session.failingSteps, step.isSteady = true) ∧ (∀ f ∈ files, f.IsSound) ∧
      List.Forall₂ (Settled fresh Session.twoFiles es none) (attempts es)
        [⟨"home/./a.yml", "one", .lua51, .omitted "not marked 'only' in 'only' mode"⟩,
          ⟨"home/./b/two.yaml", "two", .lua51, .pass⟩,
          ⟨"home/./b/two.yaml", "two", .lua52, .fail (unmapped .lua52) none⟩,
          ⟨"home/./b/two.yaml", "two", .lua53, .fail (unmapped .lua53) none⟩,
          ⟨"home/./b/two.yaml", "two", .luaJit, .fail (unmapped .luaJit) none⟩] := by
  intro s fresh files es unmapped
  have hsteps : ∀ step ∈ Session.failingSteps, step.isSteady = true := by decide
  have hrun : (run s Session.twoFiles files none).1 = .ok
      [⟨"home/./a.yml", "one", .lua51, .omitted "not marked 'only' in 'only' mode"⟩,
        ⟨"home/./b/two.yaml", "two", .lua51, .pass⟩,
        ⟨"home/./b/two.yaml", "two", .lua52, .fail (unmapped .lua52) none⟩,
        ⟨"home/./b/two.yaml", "two", .lua53, .fail (unmapped .lua53) none⟩,
        ⟨"home/./b/two.yaml", "two", .luaJit, .fail (unmapped .luaJit) none⟩] := by
    simp only [files, caseFiles_twoCaseFiles]
    decide +kernel
  obtain ⟨hfault, hsound⟩ := run_settled Session.twoFiles "lib" Program.emit (fun _ => none)
    Session.failingSteps hsteps twoCaseFiles "home" "." none
  have hfiles : ∀ f ∈ files, f.IsSound := by
    by_contra hnot
    push Not at hnot
    obtain ⟨before, f, behind, fault, -, -, -, herror⟩ := hfault hnot
    rw [herror] at hrun
    simp at hrun
  obtain ⟨results, hresults, hsettled, -⟩ := hsound hfiles
  rw [hresults, Except.ok.injEq] at hrun
  rw [← hrun]
  exact ⟨hsteps, hfiles, hsettled⟩

end Batch

end LuaSnippet
