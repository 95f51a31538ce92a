import LuaSnippet.Proofs.Script.Total
import LuaSnippet.Proofs.Program.Offsets
import LuaSnippet.Proofs.Program.Closure
import LuaSnippet.Proofs.Globals.Overload

/-!
# Compiling never breaks

Whatever texts a host hands out, compiling them comes to an end with a program and its reports. Every
text is read: matching ends, every node of the match has within it what a tree is put together from,
and a text that is refused is refused at a boundary of its characters (`readable`). Every report about
a tree points to such a boundary too, and an argument that does not fit is one of the arguments of its
call (`create_unbroken`).
-/

namespace LuaSnippet

open Script (Edition File Rule)
open Text (IsBoundary)

/-- Whether a diagnostic stands at a boundary of a text, at the position that the boundary has. -/
def Diagnostic.StandsAt (d : Diagnostic) (file text : String) (offset : Nat) : Prop :=
  IsBoundary text offset ∧ d.at? file text offset = some d

theorem Diagnostic.standsAt_place (d : Diagnostic) (file : String) {text : String} {offset : Nat}
    (h : IsBoundary text offset) : (d.place file text offset).StandsAt file text offset := by
  have hsome := (Text.position?_isSome_iff text offset).mpr (.inl h)
  obtain ⟨p, hp⟩ := Option.isSome_iff_exists.mp hsome
  refine ⟨h, ?_⟩
  rw [at?, place, hp]
  rfl

namespace Script

/-- Whether a text has an answer for which nothing is missing. -/
structure Readable (text : String) : Prop where
  answered : (read? text).isSome = true
  /-- Every node of a match has the nodes within it that its rule needs, each at its place. -/
  fits : ∀ nodes stop log, grammar.parse .program text.toList = .matched nodes stop log →
    ∃ x, nodes = [x] ∧ x.rule = .program ∧
      ∀ y : Peg.Node Rule, y.Within x → y.rule.Fits (y.children.map Peg.Node.rule)
  refused : ∀ r, read text = .error r → IsBoundary text r.offset

/-- **Every text is readable.** -/
theorem readable (text : String) : Readable text where
  answered := isSome_read? text
  fits nodes stop log hmatched := by
    obtain ⟨x, hnodes, hrule, hx⟩ := eq_program_of_parse hmatched
    exact ⟨x, hnodes, hrule, fun y hy => fits_of_derived (hx.of_within hy)⟩
  refused _ h := isBoundary_of_refused h

/-- What a file that was read has to do with its text: the tree has its offsets there, and what is wrong
with the form stands there. -/
structure File.IsPlaced (f : File) : Prop where
  statements : ∀ s ∈ f.statements, s.Placed (IsBoundary f.text)
  diagnostics : ∀ d ∈ f.diagnostics, ∃ offset, d.StandsAt f.name f.text offset

theorem isPlaced_read (name text : String) (edition : Edition) :
    (File.read name text edition).IsPlaced := by
  unfold File.read
  cases hread : read text with
  | ok body => exact ⟨placed_of_read hread, List.forall_mem_nil _⟩
  | error r =>
    refine ⟨List.forall_mem_nil _, List.forall_mem_singleton.mpr ⟨r.offset, ?_⟩⟩
    exact Diagnostic.standsAt_place _ name (isBoundary_of_refused hread)

end Script

namespace Program

variable {σ : Type} {h : Host σ} {edition : Edition}

theorem standsAt_notFound (name : String) (parent : Option String) :
    (Loaded.notFound name parent).location = none ∨
      ∃ file, (Loaded.notFound name parent).StandsAt file "" 0 := by
  cases parent with
  | none => exact .inl rfl
  | some file => exact .inr ⟨file, Diagnostic.standsAt_place _ file (.zero "")⟩

/-- What each operation of loading keeps holds at the end, where a file that is added was handed
out. -/
theorem Loads.preserves {Q : Loaded → Prop} (hmeet : ∀ l key, Q l → Q (l.meet key))
    (hmiss : ∀ l name parent, Q l → Q (l.miss name parent))
    (hpush : ∀ l name f w w', Q l → h.fetch name edition w = (.ok f, w') → Q (l.push f))
    {parent : Option String} {names : List String} {l : Loaded} {w : σ} {x : Loading σ}
    (hx : Loads h edition parent names l w x) :
    ∀ {l' w'}, x = (.ok l', w') → Q l → Q l' := by
  induction hx with
  | done =>
    intro l' w' hend hl
    obtain ⟨rfl, rfl⟩ : _ = _ ∧ _ = _ := by simpa using hend
    exact hl
  | met _ _ ih => exact ih
  | missing _ _ _ ih => exact fun hend hl => ih hend (hmiss _ _ _ (hmeet _ _ hl))
  | unreadable => exact fun hend => by simp at hend
  | broken => exact fun hend => by simp at hend
  | loaded _ _ hfetch _ _ ihrefs ihrest =>
    intro l' w' hend hl
    exact ihrest hend (hpush _ _ _ _ _ (ihrefs rfl (hmeet _ _ hl)) hfetch)

/-- Whether every report about a program stands at a boundary of the text that it is about, and every
text that went into the program is readable. -/
structure Unbroken (p : Program) : Prop where
  readable : ∀ f ∈ p.files, Script.Readable f.text
  /-- A file that is missing is reported at the start of an empty text, or at no place. -/
  missed : ∀ d ∈ p.diagnostics, d.location = none ∨ ∃ file, d.StandsAt file "" 0
  refused : ∀ f ∈ p.files, ∀ d ∈ f.diagnostics, ∃ offset, d.StandsAt f.name f.text offset
  found : ∀ f ∈ p.sources, ∀ x ∈ Inspect.findings f p.globals,
    (x.diagnostic f.name f.text).StandsAt f.name f.text x.offset
  lacking : ∀ f ∈ p.sources, ∀ r ∈ Lowering.stmtsReports p.options.dialect f.statements,
    (r.diagnostic p.options.dialect f.name f.text).StandsAt f.name f.text r.offset

/-- **Compiling never breaks.** For every host that hands out readings of texts, for the keys of a finite
list only, creating a program comes to an end, also without a limit on how deep references go; the
program can be inspected and emitted for its dialect; and no argument is looked up that a call does
not have. -/
theorem create_unbroken {keys : List String}
    (hread : ∀ name edition w f w', h.fetch name edition w = (.ok f, w') →
      ∃ name' text edition', f = File.read name' text edition')
    (hkeys : ∀ name edition w f w', h.fetch name edition w = (.ok f, w') → h.key name ∈ keys)
    {supply : Nat} (hsupply : keys.length ≤ supply) (options : Options) (roots : List String)
    (w : σ) :
    Creates h options roots w (create h supply options roots w) ∧
      (∀ p w', create h supply options roots w = (.ok p, w') → p.Unbroken) ∧
      ∀ overloads args index argument parameter,
        Globals.select overloads args = .error (.argument index argument parameter) →
        index < args.length := by
  have hsupplies : h.Supplies (fun _ => True) (fun _ => True) keys :=
    ⟨fun _ _ _ _ => trivial, fun name edition w f w' _ _ => hkeys name edition w f w',
      fun _ _ _ _ _ _ _ _ _ _ => trivial⟩
  have hcreates := hsupplies.creates hsupply options roots (fun _ _ => trivial) w trivial
  refine ⟨hcreates, fun p w' hp => ?_, fun _ _ _ _ _ hselect => Globals.index_lt_of_select hselect⟩
  rw [hp] at hcreates
  obtain ⟨l, hloads, rfl⟩ := exists_loads_of_creates hcreates
  have hfiles : ∀ f ∈ l.files, f.IsPlaced := by
    refine hloads.preserves (Q := fun l => ∀ f ∈ l.files, f.IsPlaced) (fun _ _ hl => hl)
      (fun _ _ _ hl => hl) ?_ rfl (List.forall_mem_nil _)
    intro l name f w w' hl hfetch
    obtain ⟨name', text, edition', rfl⟩ := hread _ _ _ _ _ hfetch
    exact List.forall_mem_append.mpr
      ⟨hl, List.forall_mem_singleton.mpr (Script.isPlaced_read name' text edition')⟩
  have hmissed : ∀ d ∈ l.diagnostics, d.location = none ∨ ∃ file, d.StandsAt file "" 0 := by
    refine hloads.preserves (Q := fun l => ∀ d ∈ l.diagnostics, d.location = none ∨
      ∃ file, d.StandsAt file "" 0) (fun _ _ hl => hl) ?_ (fun _ _ _ _ _ hl _ => hl) rfl
      (List.forall_mem_nil _)
    intro l name parent hl
    exact List.forall_mem_append.mpr
      ⟨hl, List.forall_mem_singleton.mpr (standsAt_notFound name parent)⟩
  refine ⟨fun f _ => Script.readable f.text, hmissed, fun f hf => (hfiles f hf).diagnostics,
    fun f hf x hx => ?_, fun f hf r hr => ?_⟩
  · have hplaced := (hfiles f (List.mem_filter.mp hf).1).statements
    exact Diagnostic.standsAt_place _ f.name (Inspect.arePlaced_findings hplaced _ x hx)
  · have hplaced := (hfiles f (List.mem_filter.mp hf).1).statements
    exact Diagnostic.standsAt_place _ f.name (Lowering.placed_stmtsReports _ hplaced r hr)

/-- A host of one file, in whose text an unknown name and an operation on bits stand behind a character
of two bytes. -/
def single : Host Unit where
  has name := name = "a.ts"
  canonical name := name
  caseSensitive := true
  directory := ""
  newLine := "\n"
  library := libraryName
  fetch name edition w :=
    (if name = "a.ts" then .ok (File.read name "/* \u00e9 */ x & 1;" edition)
      else .error ⟨name, name⟩, w)

theorem single_unbroken :
    (∀ name edition w f w', single.fetch name edition w = (.ok f, w') →
      ∃ name' text edition', f = File.read name' text edition') ∧
    (∀ name edition w f w', single.fetch name edition w = (.ok f, w') →
      single.key name ∈ ["a.ts"]) ∧
    Creates single ⟨.es5, .lua51, true, true⟩ ["a.ts"] ()
        (create single 1 ⟨.es5, .lua51, true, true⟩ ["a.ts"] ()) ∧
      (∀ p w', create single 1 ⟨.es5, .lua51, true, true⟩ ["a.ts"] () = (.ok p, w') →
        p.Unbroken) ∧
      ∀ overloads args index argument parameter,
        Globals.select overloads args = .error (.argument index argument parameter) →
        index < args.length := by
  have hfetch : ∀ name edition w f w', single.fetch name edition w = (.ok f, w') →
      name = "a.ts" ∧ f = File.read name "/* \u00e9 */ x & 1;" edition := by
    intro name edition w f w' hfetch
    have hfile := congrArg Prod.fst hfetch
    simp only [single] at hfile
    split at hfile
    · exact ⟨‹_›, (Except.ok.inj hfile).symm⟩
    · cases hfile
  have hread : ∀ name edition w f w', single.fetch name edition w = (.ok f, w') →
      ∃ name' text edition', f = File.read name' text edition' :=
    fun name edition w f w' h => ⟨_, _, _, (hfetch name edition w f w' h).2⟩
  have hkeys : ∀ name edition w f w', single.fetch name edition w = (.ok f, w') →
      single.key name ∈ ["a.ts"] := by
    intro name edition w f w' h
    rw [(hfetch name edition w f w' h).1]
    exact List.mem_singleton.mpr rfl
  exact ⟨hread, hkeys, create_unbroken hread hkeys (by decide) _ _ _⟩

end Program

end LuaSnippet
