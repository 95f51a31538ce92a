import LuaSnippet.Proofs.Globals.Merged
import LuaSnippet.Proofs.Inspect.Mentioned
import LuaSnippet.Proofs.Lowering.Mentioned
import LuaSnippet.Session.Basic

/-!
# Results and mentioned names

What is found in a file, and the Lua text that it gives, depend only on what the names in the file
stand for. So a snippet comes to the same under all ambient declarations that declare these names
alike, whatever else they declare (`results_of_mentioned`).
-/

namespace LuaSnippet

open Script (File Declaration)
open Globals (Table AgreeOn)

/-- The names that are read anywhere in a file. -/
def Script.File.mentions (f : File) : List String :=
  (Script.nameSites f.statements).map fun q => q.1.name

/-- A program with other global names. -/
def Program.under (p : Program) (t : Table) : Program := { p with globals := t }

/-- The ambient declarations of a program, in their order. -/
def Program.declarations (p : Program) : List Declaration :=
  p.files.flatMap Globals.declarationsOf

/-- Whether two programs have the same sources, compiled alike, and the same to say against the loading
and the form of their files. They may differ in what they declare. -/
structure Program.SameSources (p p' : Program) : Prop where
  options : p.options = p'.options
  newLine : p.newLine = p'.newLine
  sources : p.sources = p'.sources
  loading : p.diagnostics = p'.diagnostics
  reading : p.files.flatMap (·.diagnostics) = p'.files.flatMap (·.diagnostics)

variable {t t' : Table} {f : File} {p p' : Program}

theorem agreeOn_sites (h : ∀ x ∈ f.mentions, t.find? x = t'.find? x) :
    AgreeOn t t' (Script.sites f.statements) :=
  fun q hq => h q.1.name (List.mem_map_of_mem hq)

theorem artifact_congr (hoptions : p.options = p'.options) (hnewLine : p.newLine = p'.newLine)
    (h : ∀ x ∈ f.mentions, p.globals.find? x = p'.globals.find? x) :
    p.artifact f = p'.artifact f := by
  have hlower : Lowering.lower ⟨p.options.dialect, p.globals⟩ f.statements =
      Lowering.lower ⟨p.options.dialect, p'.globals⟩ f.statements :=
    Lowering.lower_congr (agreeOn_sites h)
  rw [Program.artifact, Program.artifact, Program.luaText, Program.luaText, Program.setting,
    Program.setting, hlower, hoptions, hnewLine]

theorem emit_congr (hp : p.SameSources p')
    (h : ∀ f ∈ p.sources, ∀ x ∈ f.mentions, p.globals.find? x = p'.globals.find? x) :
    p.emit = p'.emit := by
  have hartifacts : p.sources.map p.artifact = p.sources.map p'.artifact :=
    List.map_congr_left fun f hf => artifact_congr hp.options hp.newLine (h f hf)
  have hlacking : p.lacking = p'.lacking := by
    funext f
    rw [Program.lacking, Program.lacking, hp.options]
  rw [Program.emit, Program.emit, hartifacts, hlacking, hp.sources]

theorem allDiagnostics_congr (hp : p.SameSources p')
    (h : ∀ f ∈ p.sources, ∀ x ∈ f.mentions, p.globals.find? x = p'.globals.find? x) :
    p.allDiagnostics = p'.allDiagnostics := by
  have hinspected : (p.sources.flatMap fun f => Inspect.diagnostics f p.globals) =
      p.sources.flatMap fun f => Inspect.diagnostics f p'.globals :=
    List.flatMap_congr fun f hf => Inspect.diagnostics_congr f (agreeOn_sites (h f hf))
  rw [Program.allDiagnostics, Program.allDiagnostics, hinspected, hp.loading, hp.reading,
    hp.sources]

/-- **Results depend only on the declarations of the names that a file mentions.** Under two tables
that agree on these names a file has the same diagnostics, gives the same artifact and lacks the same.
So two programs of the same sources come to the same if they declare the mentioned names alike:
declarations of other names may be added, removed and changed. -/
theorem results_of_mentioned :
    (∀ (f : File) (p : Program) (t t' : Table), (∀ x ∈ f.mentions, t.find? x = t'.find? x) →
      Inspect.diagnostics f t = Inspect.diagnostics f t' ∧
        (p.under t).artifact f = (p.under t').artifact f ∧
        (p.under t).lacking f = (p.under t').lacking f) ∧
    ∀ (p p' : Program) (d : Dialect), p.SameSources p' →
      p.globals = Globals.bind p.files → p'.globals = Globals.bind p'.files →
      (∀ f ∈ p.sources, ∀ x ∈ f.mentions,
        (p.declarations.filter fun d => d.name = x) = p'.declarations.filter fun d => d.name = x) →
      Session.outcome d p p.emit = Session.outcome d p' p'.emit := by
  refine ⟨fun f p t t' h => ⟨?_, ?_, rfl⟩, fun p p' d hp hglobals hglobals' h => ?_⟩
  · exact Inspect.diagnostics_congr f (agreeOn_sites h)
  · exact artifact_congr rfl rfl h
  · have hfind : ∀ f ∈ p.sources, ∀ x ∈ f.mentions,
        p.globals.find? x = p'.globals.find? x := by
      intro f hf x hx
      rw [hglobals, hglobals']
      exact Globals.find?_declareAll_congr (h f hf x hx)
    rw [Session.outcome, Session.outcome, allDiagnostics_congr hp hfind, emit_congr hp hfind]

/-- A source that calls a function. -/
@[irreducible]
def callFile : File := File.read "input.ts" "const [a] = pair(1);" .es5

/-- The program of this source and of some ambient declarations. -/
def callProgram (declared : List Declaration) : Program :=
  let files := [callFile, ⟨"lib.d.ts", "", .es5, declared.map (.declare · ⟨0, 0⟩), [], []⟩]
  ⟨Session.options .lua53, ["input.ts"], files, Globals.bind files, "\n", []⟩

theorem sources_callProgram (declared : List Declaration) :
    (callProgram declared).sources = [callFile] := by
  have hsource : callFile.isDeclaration = false := by decide +kernel
  have hlibrary : File.isDeclaration
      ⟨"lib.d.ts", "", .es5, declared.map (.declare · ⟨0, 0⟩), [], []⟩ = true := by
    show ".d.ts".toList.isSuffixOf "lib.d.ts".toList = true
    decide
  simp [Program.sources, callProgram, hsource, hlibrary]

theorem sameSources_callProgram (declared declared' : List Declaration) :
    (callProgram declared).SameSources (callProgram declared') := by
  refine ⟨rfl, rfl, ?_, rfl, ?_⟩
  · rw [sources_callProgram, sources_callProgram]
  · simp only [callProgram, List.flatMap_cons, List.flatMap_nil]

theorem globals_callProgram (declared : List Declaration) :
    (callProgram declared).globals = Globals.bind (callProgram declared).files := rfl

theorem declarations_callProgram (declared : List Declaration) :
    (callProgram declared).declarations = Globals.declarationsOf callFile ++ declared := by
  have hdeclared :
      (declared.map (.declare · ⟨0, 0⟩)).filterMap Globals.declarationOf = declared := by
    rw [List.filterMap_map]
    exact List.filterMap_some
  simp only [Program.declarations, callProgram, List.flatMap_cons, List.flatMap_nil,
    List.append_nil]
  rw [Globals.declarationsOf, Globals.declarationsOf, hdeclared]

/-- The declaration of the function that is called. -/
def pairDeclaration : Declaration :=
  .function ⟨"pair", [⟨"n", false, false, some "number"⟩], some "LuaMultiReturn<[number, number]>"⟩

/-- A declaration of another name does not matter to the call. -/
theorem callProgram_results :
    let p := callProgram [pairDeclaration]
    let p' := callProgram [.value "other" "number", pairDeclaration]
    callFile.mentions = ["pair"] ∧ p.SameSources p' ∧
      Inspect.diagnostics callFile p.globals = Inspect.diagnostics callFile p'.globals ∧
      Session.outcome .lua53 p p.emit = Session.outcome .lua53 p' p'.emit := by
  intro p p'
  have hmentions : callFile.mentions = ["pair"] := by decide +kernel
  have hsame : p.SameSources p' := sameSources_callProgram _ _
  have hfilter : ∀ x ∈ callFile.mentions, (p.declarations.filter fun d => d.name = x) =
      p'.declarations.filter fun d => d.name = x := by
    intro x hx
    rw [hmentions] at hx
    rw [List.mem_singleton.mp hx, declarations_callProgram, declarations_callProgram,
      List.filter_append, List.filter_append]
    rfl
  refine ⟨hmentions, hsame, ?_, ?_⟩
  · refine (results_of_mentioned.1 callFile p p.globals p'.globals fun x hx => ?_).1
    rw [globals_callProgram, globals_callProgram]
    exact Globals.find?_declareAll_congr (hfilter x hx)
  · refine results_of_mentioned.2 p p' .lua53 hsame (globals_callProgram _)
      (globals_callProgram _) fun f hf x hx => ?_
    rw [sources_callProgram, List.mem_singleton] at hf
    rw [hf] at hx
    exact hfilter x hx

end LuaSnippet
