import LuaSnippet.Proofs.Globals.Declared
import LuaSnippet.Proofs.Lowering.Lacking
import LuaSnippet.Proofs.Lowering.Resolution
import LuaSnippet.Proofs.Session.Snippet

/-!
# What a successful run says

A run answers with a Lua text only if no stage had anything to report. The loader accounts for every
name that is needed, each file was read as a script, the inspection resolved every name and every call
of the snippet, and the walk over its operators found none that the dialect lacks. The facts about the
stages are put together here (`run_sound`).
-/

namespace LuaSnippet

open Script (Expr Stmt File Ident Site)

namespace Inspect

variable {f : File} {files : List File}

/-! ### Names and calls of a file without findings -/

/-- Every name of a script is bound where it stands or declared by some files, and every call of a
function that they declare is accepted by one of its overloads. -/
structure Resolved (files : List File) (body : List Stmt) : Prop where
  names : ∀ n ∈ Script.nameSites body, n.1.name ∈ n.2.bound ∨
    ∃ f ∈ files, ∃ g ∈ Globals.declarationsOf f, g.name = n.1.name
  calls : ∀ p ∈ Script.sites body, ∀ callee args span, p.expr = .call callee args span →
    ∀ overloads, Globals.overloads? (Globals.bind files) p.way.bound.contains callee =
      some overloads → ∃ o ∈ overloads, Globals.mismatch o args = none

theorem bound_or_global_of_nameFindings {t : Globals.Table} {w : Script.Way} {id : Ident}
    (hname : nameFindings t (scopesAt w) id = []) :
    id.name ∈ w.bound ∨ (t.find? id.name).isSome = true := by
  unfold nameFindings at hname
  split at hname
  next hknown =>
    rw [Bool.or_eq_true] at hknown
    exact hknown.imp_left (binds_scopesAt w id.name).mp
  · simp at hname

theorem overloads?_bound (t : Globals.Table) (w : Script.Way) (callee : Expr) :
    Globals.overloads? t w.bound.contains callee =
      Globals.overloads? t (scopesAt w).binds callee := by
  refine Globals.overloads?_congr t callee fun x _ => ?_
  rw [Bool.eq_iff_iff, binds_scopesAt, List.contains_iff_mem]

theorem resolved_of_findings (hnone : findings f (Globals.bind files) = []) :
    Resolved files f.statements where
  names := by
    intro n hn
    obtain ⟨⟨e, w⟩, hp, hname⟩ := List.mem_filterMap.mp hn
    cases e with
    | ident id =>
      obtain rfl : (id, w) = n := Option.some.inj hname
      have hfindings : nameFindings (Globals.bind files) (scopesAt w) id = [] :=
        Lowering.siteFindings_eq_nil hnone hp
      exact (bound_or_global_of_nameFindings hfindings).imp_right
        (Globals.isSome_find?_bind files id.name).mp
    | _ => simp [Site.name?] at hname
  calls := by
    rintro ⟨e, w⟩ hp callee args span hcall overloads hoverloads
    obtain rfl : e = .call callee args span := hcall
    have hfindings : callFindings (Globals.bind files) (scopesAt w) callee args span.start = [] :=
      Lowering.siteFindings_eq_nil hnone hp
    rw [overloads?_bound] at hoverloads
    have haccepts := Lowering.accepts_of_callFindings hfindings
    rw [hoverloads, Option.bind_some] at haccepts
    cases hselect : Globals.select overloads args with
    | ok found =>
      obtain ⟨hmem, hmatch⟩ := Globals.accepts_of_select hselect
      exact ⟨found.2, hmem, hmatch⟩
    | error m =>
      rw [hselect] at haccepts
      cases haccepts with
      | other hother => simp [hother] at hoverloads

end Inspect

namespace Session

open Program (Needed)
open Text.Letter (lower)

variable {library : String} {disk : Disk} {declarations : Declarations} {s : Store} {d : Dialect}
  {snippet path lua : String} {p : Program}

/-! ### The files of a program without diagnostics -/

/-- Every name that is needed was supplied with one text, under its key, and every text that was
supplied is a script. -/
structure Supplied (library : String) (disk : Disk) (s : Store) (snippet path : String)
    (files : List File) : Prop where
  once : ∀ name, Needed (rootsOf path) files name →
    files.countP (fun f => lower f.name = lower name) = 1
  scripts : ∀ f ∈ files, Needed (rootsOf path) files f.name ∧ ∃ text statements,
    s.textFor library disk snippet f.name = some text ∧ Script.read text = .ok statements ∧
      f = ⟨f.name, text, .es5, statements, Script.Reference.all text, []⟩

theorem read_eq_of_no_diagnostics {name text : String} {edition : Script.Edition}
    (hnone : (File.read name text edition).diagnostics = []) :
    ∃ statements, Script.read text = .ok statements ∧
      File.read name text edition =
        ⟨name, text, edition, statements, Script.Reference.all text, []⟩ := by
  unfold File.read at hnone ⊢
  split at hnone
  next statements hread => exact ⟨statements, hread, rfl⟩
  · simp at hnone

theorem Assembled.supplied (hp : Assembled library disk s d snippet path p)
    (hnone : ∀ f ∈ p.files, f.diagnostics = []) : Supplied library disk s snippet path p.files where
  once := hp.once
  scripts := by
    intro f hf
    obtain ⟨hneeded, text, htext, hread⟩ := hp.handed f hf
    have hdiagnostics := hnone f hf
    rw [hread] at hdiagnostics
    obtain ⟨statements, hstatements, hfile⟩ := read_eq_of_no_diagnostics hdiagnostics
    exact ⟨hneeded, text, statements, htext, hstatements, hread.trans hfile⟩

/-- No stage has anything to say against a program. -/
structure Quiet (d : Dialect) (files : List File) : Prop where
  read : ∀ f ∈ files, f.diagnostics = []
  inspected : ∀ f ∈ files, f.isDeclaration = false →
    Inspect.diagnostics f (Globals.bind files) = []
  lowered : ∀ f ∈ files, f.isDeclaration = false → Lowering.stmtsReports d f.statements = []

theorem Assembled.quiet (hp : Assembled library disk s d snippet path p)
    (hall : p.allDiagnostics = []) (hemit : (Program.emit p).diagnostics = []) :
    Quiet d p.files := by
  have hglobals : p.globals = Globals.bind p.files := by rw [hp.eq_mk]
  have hdialect : p.options.dialect = d := by rw [hp.eq_mk]; rfl
  have hsources : ∀ f ∈ p.files, f.isDeclaration = false → f ∈ p.sources := by
    intro f hf hsource
    exact List.mem_filter.mpr ⟨hf, by rw [hsource]; rfl⟩
  rw [Program.allDiagnostics, List.append_eq_nil_iff, List.append_eq_nil_iff] at hall
  obtain ⟨⟨-, hread⟩, hinspect⟩ := hall
  refine ⟨List.flatMap_eq_nil_iff.mp hread, fun f hf hsource => ?_, fun f hf hsource => ?_⟩
  · rw [← hglobals]
    exact List.flatMap_eq_nil_iff.mp hinspect f (hsources f hf hsource)
  · have hlacking := List.flatMap_eq_nil_iff.mp hemit f (hsources f hf hsource)
    rw [Program.lacking, List.map_eq_nil_iff, hdialect] at hlacking
    exact hlacking

/-! ### Successful runs -/

theorem exists_of_run_eq_ok
    (hrun : (run ⟨library, Program.emit, declarations, s⟩ disk d snippet).1 = .ok lua) :
    ∃ path p, declarations d = some path ∧ Assembled library disk s d snippet path p ∧
      Quiet d p.files ∧ lua = Text.trim (luaOf d p.globals snippet) := by
  have hruns := runsTo library disk declarations s d snippet
  rw [hrun] at hruns
  cases hruns with
  | lowered hpath hp hnone hlua =>
    rw [List.append_eq_nil_iff] at hnone
    exact ⟨_, _, hpath, hp, hp.quiet hnone.1 hnone.2, hlua⟩

/-- What is known of a snippet that has a Lua text: the declaration file of its dialect, the files of
its program and its statements. -/
structure Verified (library : String) (disk : Disk) (declarations : Declarations) (s : Store)
    (d : Dialect) (snippet lua path : String) (files : List File) (body : List Stmt) : Prop where
  mapped : declarations d = some path
  supplied : Supplied library disk s snippet path files
  alone : files.filter (·.name = snippetName) = [snippetFile snippet]
  parsed : Script.read snippet = .ok body
  resolved : Inspect.Resolved files body
  expressible : Lowering.Expressible d body
  quiet : Quiet d files
  lua_eq : lua = Text.trim (Lua.stmtsText "\n" 0 (Lowering.lower ⟨d, Globals.bind files⟩ body))

/-- **A successful run is sound.** Where a run answers with a Lua text, its dialect is mapped; every
file of the closure of the references was supplied and is a script; every name of the snippet is bound
or declared in one of these files, every call of a declared function is accepted, and there is no
operator that the dialect lacks; no file has a diagnostic of any stage; and the answer is the lowered
form of the snippet without the blanks around it. -/
theorem run_sound
    (hrun : (run ⟨library, Program.emit, declarations, s⟩ disk d snippet).1 = .ok lua) :
    ∃ path files body,
      Verified library disk declarations s d snippet lua path files body := by
  obtain ⟨path, p, hmapped, hp, hquiet, hlua⟩ := exists_of_run_eq_ok hrun
  obtain ⟨body, hbody, hfile⟩ := read_eq_of_no_diagnostics (hquiet.read _ hp.snippet_mem)
  have hstatements : (snippetFile snippet).statements = body := by rw [snippetFile, hfile]
  have hsource := isDeclaration_snippetFile snippet
  have hinspected := hquiet.inspected _ hp.snippet_mem hsource
  rw [Inspect.diagnostics, List.map_eq_nil_iff] at hinspected
  have hresolved := Inspect.resolved_of_findings hinspected
  have hreports := hquiet.lowered _ hp.snippet_mem hsource
  rw [hstatements] at hreports hresolved
  have hglobals : p.globals = Globals.bind p.files := by rw [hp.eq_mk]
  rw [luaOf, hstatements, hglobals] at hlua
  exact ⟨path, p.files, body, hmapped, hp.supplied hquiet.read, hp.standsAlone.files, hbody,
    hresolved, Lowering.expressible_of_stmtsReports hreports, hquiet, hlua⟩

/-- A disk on which the declaration file refers to one with a namespace. -/
def shifts : Disk :=
  ⟨[("t.d.ts", "/// <reference path=\"n.d.ts\" />\ndeclare const m: number;"),
    ("n.d.ts", "declare namespace n { function f(a: number): void; }"), ("lib/lib.d.ts", "")],
    [], .empty⟩

/-- A snippet that calls a function of its own, which calls one of the namespace. -/
def shifting : String := "const g = (a) => n.f(a >>> m);\ng(1);"

theorem shifting_sound :
    (run ⟨"lib", Program.emit, fun _ => some "t.d.ts", .empty⟩ shifts .lua53 shifting).1 =
        .ok "local g = function(a) return n.f(a >> m) end\ng(1)" ∧
      ∃ path files body, Verified "lib" shifts (fun _ => some "t.d.ts") .empty .lua53 shifting
        "local g = function(a) return n.f(a >> m) end\ng(1)" path files body := by
  have hrun : (run ⟨"lib", Program.emit, fun _ => some "t.d.ts", .empty⟩ shifts .lua53 shifting).1 =
      .ok "local g = function(a) return n.f(a >> m) end\ng(1)" := by
    decide +kernel
  exact ⟨hrun, run_sound hrun⟩

end Session

end LuaSnippet
