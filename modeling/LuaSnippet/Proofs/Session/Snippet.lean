import LuaSnippet.Proofs.Session.Assembly

/-!
# The snippet among the files of its program

Files may refer to the name of the snippet in any letters and through any folders, and the declaration
file may be that name itself. All of these have one key, under which the host has the snippet and
nothing else. So the snippet is there once, and so is its artifact, whatever the files of the disk
refer to (`snippet_alone`); a run never looks for the artifact in vain. How a run can end is said once,
in `RunsTo`.
-/

namespace LuaSnippet.Session

open Script (File)
open Text.Letter (lower)

variable {library : String} {disk : Disk} {s : Store} {d : Dialect} {snippet path : String}
  {p : Program}

theorem filter_eq_singleton {α : Type} {q r : α → Bool} {l : List α} {a : α}
    (hcount : l.countP r = 1) (hqr : ∀ b, q b = true → r b = true) (ha : a ∈ l) (hq : q a = true) :
    l.filter q = [a] := by
  have hmem : a ∈ l.filter q := List.mem_filter.mpr ⟨ha, hq⟩
  have hle : (l.filter q).length ≤ 1 := by
    rw [← hcount, ← List.countP_eq_length_filter]
    exact List.countP_mono_left fun b _ hb => hqr b hb
  have hpos := List.length_pos_of_mem hmem
  obtain ⟨b, hb⟩ := List.length_eq_one_iff.mp (show (l.filter q).length = 1 by omega)
  rw [hb, List.mem_singleton] at hmem
  rw [hb, hmem]

abbrev snippetFile (snippet : String) : File :=
  .read snippetName snippet .es5

/-- The Lua text of a snippet, as it is lowered among some global names. -/
def luaOf (d : Dialect) (globals : Globals.Table) (snippet : String) : String :=
  Lua.stmtsText "\n" 0 (Lowering.lower ⟨d, globals⟩ (snippetFile snippet).statements)

theorem isDeclaration_snippetFile (snippet : String) :
    (snippetFile snippet).isDeclaration = false := by
  unfold File.isDeclaration
  rw [name_read]
  decide +kernel

theorem snippetFile_mem_sources (hp : Assembled library disk s d snippet path p) :
    snippetFile snippet ∈ p.sources := by
  refine List.mem_filter.mpr ⟨hp.snippet_mem, ?_⟩
  rw [isDeclaration_snippetFile]
  rfl

theorem artifact_snippetFile (hp : Assembled library disk s d snippet path p) :
    p.artifact (snippetFile snippet) = ⟨snippetName, luaOf d p.globals snippet⟩ := by
  rw [hp.eq_mk]
  simp [Program.artifact, Program.luaText, Program.setting, options, luaOf, name_read]

/-- The snippet is the one file, and its lowered form the one artifact, with the name of the
snippet. -/
structure StandsAlone (d : Dialect) (snippet : String) (p : Program) : Prop where
  files : p.files.filter (·.name = snippetName) = [snippetFile snippet]
  artifacts : (Program.emit p).artifacts.filter (·.name = snippetName) =
    [⟨snippetName, luaOf d p.globals snippet⟩]

theorem Assembled.standsAlone (hp : Assembled library disk s d snippet path p) :
    StandsAlone d snippet p := by
  have hcount := hp.once snippetName (.start List.mem_cons_self)
  have hkey : ∀ f : File, decide (f.name = snippetName) = true →
      decide (lower f.name = lower snippetName) = true := by
    intro f hf
    rw [of_decide_eq_true hf, decide_eq_true rfl]
  have hname : decide ((snippetFile snippet).name = snippetName) = true :=
    decide_eq_true (name_read snippetName snippet .es5)
  refine ⟨filter_eq_singleton hcount hkey hp.snippet_mem hname, ?_⟩
  -- an artifact has the name of its file, so those of the name come from the files of the name
  have hsources : p.sources.countP (fun f => lower f.name = lower snippetName) = 1 := by
    have hle := List.Sublist.countP_le (p := fun f : File => lower f.name = lower snippetName)
      (List.filter_sublist (p := fun f : File => !f.isDeclaration) (l := p.files))
    have hpos : 0 < p.sources.countP (fun f => lower f.name = lower snippetName) :=
      List.countP_pos_iff.mpr ⟨_, snippetFile_mem_sources hp, hkey _ hname⟩
    have hle' : p.sources.countP (fun f => lower f.name = lower snippetName) ≤ 1 := hcount ▸ hle
    omega
  have hfilter := filter_eq_singleton hsources hkey (snippetFile_mem_sources hp) hname
  rw [Program.emit, List.filter_map]
  show (p.sources.filter fun f => decide (f.name = snippetName)).map p.artifact = _
  rw [hfilter, List.map_singleton, artifact_snippetFile hp]

theorem StandsAlone.snippetLua (hp : StandsAlone d snippet p) :
    snippetLua (Program.emit p).artifacts = .ok (Text.trim (luaOf d p.globals snippet)) := by
  unfold Session.snippetLua
  rw [← List.head?_filter, hp.artifacts]
  rfl

inductive RunsTo (library : String) (disk : Disk) (declarations : Declarations) (s : Store)
    (d : Dialect) (snippet : String) : Except Failure String → Prop where
  | unmapped (hpath : declarations d = none) :
    RunsTo library disk declarations s d snippet (.error (.unmapped d))
  | unreadable {path : String} {u : Program.Unreadable} (hpath : declarations d = some path)
      (hcreate : (Program.create (host library disk snippet) (supplyBound disk s) (options d)
        [snippetName, path] s).1 = .error u) :
    RunsTo library disk declarations s d snippet (.error (.unreadable u))
  | diagnosed {path : String} {p : Program} (hpath : declarations d = some path)
      (hp : Assembled library disk s d snippet path p)
      (hsome : p.allDiagnostics ++ (Program.emit p).diagnostics ≠ []) :
    RunsTo library disk declarations s d snippet
      (.error (.diagnosed d (p.allDiagnostics ++ (Program.emit p).diagnostics)))
  | lowered {path lua : String} {p : Program} (hpath : declarations d = some path)
      (hp : Assembled library disk s d snippet path p)
      (hnone : p.allDiagnostics ++ (Program.emit p).diagnostics = [])
      (hlua : lua = Text.trim (luaOf d p.globals snippet)) :
    RunsTo library disk declarations s d snippet (.ok lua)

theorem runsTo (library : String) (disk : Disk) (declarations : Declarations) (s : Store)
    (d : Dialect) (snippet : String) :
    RunsTo library disk declarations s d snippet
      (run ⟨library, Program.emit, declarations, s⟩ disk d snippet).1 := by
  rw [run_fst]
  simp only
  split
  next hpath => exact .unmapped hpath
  next path hpath =>
    split
    next p hcreate =>
      have hp := assembled hcreate
      unfold outcome
      rw [hp.standsAlone.snippetLua]
      split
      next hnone => exact .lowered hpath hp hnone rfl
      next hsome => exact .diagnosed hpath hp hsome
    next u hcreate => exact .unreadable hpath hcreate

/-- **The snippet stands alone in its program**, whatever the disk and the store hold, whatever is
mapped, and whatever refers to it: there is one file of its name, which is the snippet, and one
artifact, which is its lowered form, so that a run never misses it. -/
theorem snippet_alone (library : String) (disk : Disk) (declarations : Declarations) (s : Store)
    (d : Dialect) (snippet : String) :
    (∀ path p, (Program.create (host library disk snippet) (supplyBound disk s) (options d)
      [snippetName, path] s).1 = .ok p → StandsAlone d snippet p) ∧
    ∀ file emitted, (run ⟨library, Program.emit, declarations, s⟩ disk d snippet).1 ≠
      .error (.artifactMissing file emitted) := by
  refine ⟨fun path p hcreate => (assembled hcreate).standsAlone, fun file emitted hrun => ?_⟩
  have hruns := runsTo library disk declarations s d snippet
  rw [hrun] at hruns
  cases hruns

/-- A disk on which the declaration file and another file refer to the snippet in letters of their
own, and the default library is empty. -/
def echoes : Disk :=
  ⟨[("t.d.ts", "/// <reference path=\"INPUT.ts\" />\n/// <reference path=\"a/b.ts\" />"),
    ("a/b.ts", "/// <reference path=\"../Input.ts\" />"), ("lib/lib.d.ts", "")], [], .empty⟩

def echo : String := "/// <reference path=\"a/../input.ts\" />\nconst x = 1;"

theorem echo_alone :
    ∃ p, (Program.create (host "lib" echoes echo) (supplyBound echoes .empty) (options .lua53)
        [snippetName, "t.d.ts"] .empty).1 = .ok p ∧
      p.files.map (·.name) = ["input.ts", "a/b.ts", "t.d.ts", "lib.d.ts"] ∧
      StandsAlone .lua53 echo p ∧ luaOf .lua53 p.globals echo = "local x = 1\n" := by
  have hfiles : (Program.create (host "lib" echoes echo) (supplyBound echoes .empty)
      (options .lua53) [snippetName, "t.d.ts"] .empty).1.toOption.map
        (fun p => (p.files.map (·.name), luaOf .lua53 p.globals echo)) =
      some (["input.ts", "a/b.ts", "t.d.ts", "lib.d.ts"], "local x = 1\n") := by
    decide +kernel
  cases hcreate : (Program.create (host "lib" echoes echo) (supplyBound echoes .empty)
      (options .lua53) [snippetName, "t.d.ts"] .empty).1 with
  | error u =>
    rw [hcreate] at hfiles
    simp [Except.toOption] at hfiles
  | ok p =>
    rw [hcreate, Except.toOption, Option.map_some, Option.some.injEq, Prod.mk.injEq] at hfiles
    have halone := (snippet_alone "lib" echoes (fun _ => some "t.d.ts") .empty .lua53 echo).1
      "t.d.ts" p hcreate
    exact ⟨p, rfl, hfiles.1, halone, hfiles.2⟩

end LuaSnippet.Session
