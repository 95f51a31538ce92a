import LuaSnippet.Program.Emission
import LuaSnippet.Proofs.Program.Total
import LuaSnippet.Proofs.Script.Layout
import LuaSnippet.Proofs.Script.Occurrence

/-!
# What is reported for a file

The reports of a script are those for the operators that occur in it, each for itself, whatever stands
around it (`reports_occurrences`). So emitting a file reports every operator that the dialect lacks,
once and where its operation starts, and reports nothing else (`lacking_read`).
-/

namespace LuaSnippet

open Script (Phrase Occurrence Edition File Stmt occurrences)

namespace Script.Phrase

/-- Whether a phrase is an operation on bits. -/
def isOnBits : Phrase → Bool
  | expr (.binary op _ _) => op ∈ [.bitOr, .bitXor, .bitAnd, .shl, .shr, .ushr]
  | expr (.unary .bitNot _ _) => true
  | _ => false

/-- Whether a phrase is a shift to the right that keeps the sign. -/
def isSignedShift : Phrase → Bool
  | expr (.binary .shr _ _) => true
  | _ => false

theorem isOnBits_binary (op : Script.BinaryOp) (lhs rhs : Script.Expr) :
    (expr (.binary op lhs rhs)).isOnBits = op.isBitwise := by
  cases op <;> rfl

end Script.Phrase

namespace Lowering

/-- Whether a dialect lacks the operator of a phrase, and what it lacks then. -/
def phraseLack (d : Dialect) (x : Phrase) : Option Lack :=
  match d with
  | .lua51 => if x.isOnBits then some .bitwise else none
  | .lua53 => if x.isSignedShift then some .signedShift else none
  | .lua52 | .luaJit => none

theorem ownReports_eq_reportOf (d : Dialect) (x : Phrase) :
    ownReports d x = reportOf (phraseLack d x) x.span.start := by
  cases x with
  | expr e =>
    cases e with
    | unary op operand span => cases d <;> cases op <;> rfl
    | binary op lhs rhs => cases d <;> cases op <;> rfl
    | _ => cases d <;> rfl
  | stmt s => cases d <;> rfl

/-- **The reports of a script are those for the operators that occur in it.** -/
theorem reports_occurrences (d : Dialect) (body : List Stmt) :
    (stmtsReports d body).Perm
      ((occurrences body).flatMap fun o => reportOf (phraseLack d o.phrase) o.phrase.span.start) := by
  have hreports : (body.flatMap fun s => phraseReports d (.stmt s)).Perm
      ((occurrences body).flatMap fun o => ownReports d o.phrase) :=
    Script.gather_occurrences phraseReports_perm body
  simp only [ownReports_eq_reportOf] at hreports
  rw [stmtsReports_eq]
  exact hreports

theorem reports_filter {d : Dialect} {kind : Phrase → Bool} {lack : Lack}
    (hlack : ∀ x, phraseLack d x = if kind x then some lack else none) (body : List Stmt) :
    (stmtsReports d body).Perm
      (((occurrences body).filter fun o => kind o.phrase).map fun o =>
        ⟨lack, o.phrase.span.start⟩) := by
  have hone : ∀ o : Occurrence, reportOf (phraseLack d o.phrase) o.phrase.span.start =
      if kind o.phrase then [⟨lack, o.phrase.span.start⟩] else [] := by
    intro o
    rw [hlack]
    cases kind o.phrase <;> rfl
  have hfilter : ∀ os : List Occurrence,
      (os.flatMap fun o => reportOf (phraseLack d o.phrase) o.phrase.span.start) =
        (os.filter fun o => kind o.phrase).map fun o => ⟨lack, o.phrase.span.start⟩ := by
    intro os
    induction os with
    | nil => rfl
    | cons o rest ih =>
      rw [List.flatMap_cons, ih, hone, List.filter_cons]
      cases kind o.phrase <;> rfl
  exact hfilter _ ▸ reports_occurrences d body

theorem reports_eq_nil {d : Dialect} {body : List Stmt}
    (hlack : ∀ o ∈ occurrences body, phraseLack d o.phrase = none) : stmtsReports d body = [] := by
  have hnone : ((occurrences body).flatMap fun o =>
      reportOf (phraseLack d o.phrase) o.phrase.span.start) = [] := by
    refine List.flatMap_eq_nil_iff.mpr fun o ho => ?_
    rw [hlack o ho, reportOf]
  have hreports := reports_occurrences d body
  rw [hnone] at hreports
  exact hreports.eq_nil

end Lowering

namespace Program

/-- A program as it is compiled for another dialect. -/
def targeting (p : Program) (d : Dialect) : Program :=
  { p with options := { p.options with dialect := d } }

/-- Whether the diagnostics of emitting a file are one error for each phrase of a kind that occurs in
the file, at the position where the phrase starts. -/
def ReportsEach (p : Program) (f : File) (kind : Phrase → Bool) (code : Nat) (sentence : String) :
    Prop :=
  ((p.lacking f).map some).Perm
    (((occurrences f.statements).filter fun o => kind o.phrase).map fun o =>
      (Diagnostic.error code sentence).at? f.name f.text o.phrase.span.start)

theorem map_some_lacking (p : Program) {f : File} (hf : f.IsPlaced) :
    (p.lacking f).map some =
      (Lowering.stmtsReports p.options.dialect f.statements).map fun r =>
        (Diagnostic.error r.lack.code (r.lack.text p.options.dialect)).at? f.name f.text r.offset := by
  rw [lacking, List.map_map]
  refine List.map_congr_left fun r hr => ?_
  have hplace : Text.IsBoundary f.text r.offset :=
    Lowering.placed_stmtsReports p.options.dialect hf.statements r hr
  exact (Diagnostic.standsAt_place _ f.name hplace).2.symm

theorem reportsEach {p : Program} {f : File} (hf : f.IsPlaced) {kind : Phrase → Bool}
    {lack : Lowering.Lack} {code : Nat} {sentence : String}
    (hlack : ∀ x, Lowering.phraseLack p.options.dialect x = if kind x then some lack else none)
    (hcode : lack.code = code) (htext : lack.text p.options.dialect = sentence) :
    p.ReportsEach f kind code sentence := by
  rw [ReportsEach, map_some_lacking p hf, ← hcode, ← htext]
  have hreports := (Lowering.reports_filter hlack f.statements).map fun r =>
    (Diagnostic.error r.lack.code (r.lack.text p.options.dialect)).at? f.name f.text r.offset
  rw [List.map_map] at hreports
  exact hreports

/-- **Every operator that a dialect lacks is reported once, where its operation starts, and nothing else
is.** For every file that is read, under all global names: for Lua 5.1 there is one error for each
operation on bits that occurs in the file, for Lua 5.3 one for each shift to the right that keeps the
sign, and none for the others. -/
theorem lacking_read (p : Program) (name text : String) (edition : Edition) :
    let f := File.read name text edition
    (p.targeting .lua51).ReportsEach f Phrase.isOnBits 100001
        "Bitwise operations are not supported for target Lua 5.1." ∧
      (p.targeting .lua53).ReportsEach f Phrase.isSignedShift 100002
        "Right shift operator is not supported for target Lua 5.3. Use \x60>>>\x60 instead." ∧
      (p.targeting .lua52).lacking f = [] ∧ (p.targeting .luaJit).lacking f = [] := by
  intro f
  have hf : f.IsPlaced := Script.isPlaced_read name text edition
  have hbits : ∀ x, Lowering.phraseLack .lua51 x = if x.isOnBits then some .bitwise else none :=
    fun _ => rfl
  have hshift : ∀ x,
      Lowering.phraseLack .lua53 x = if x.isSignedShift then some .signedShift else none :=
    fun _ => rfl
  refine ⟨?_, ?_, ?_, ?_⟩
  · exact reportsEach hf hbits rfl rfl
  · exact reportsEach hf hshift rfl rfl
  · exact congrArg _ (Lowering.reports_eq_nil fun _ _ => rfl)
  · exact congrArg _ (Lowering.reports_eq_nil fun _ _ => rfl)

/-- A script with operations on bits in an argument, a list, an arrow body and an `else if`. -/
def bitsText : String :=
  "print(1 & 2 | ~3);\nconst f = a => [a >> 1];\nif (f) \x7b\x7d else if (4 >>> 5 >> 6 ^ 7) \x7b print(8 << 9); \x7d"

/-- The script as a file. -/
@[irreducible]
def bitsFile : File := File.read "bits.ts" bitsText .es5

/-- A program of this file, with no global names. -/
def bitsProgram : Program :=
  ⟨⟨.es5, .lua51, true, true⟩, ["bits.ts"], [bitsFile], [], "\n", []⟩

def bitsErrors (code : Nat) (sentence : String) (places : List Text.Position) : List Diagnostic :=
  places.map fun p => ⟨.error, code, sentence, some ⟨"bits.ts", p⟩⟩

/-- Operations that start where their first operand does are reported each for itself. -/
theorem bitsFile_lacking :
    ((bitsProgram.targeting .lua51).lacking bitsFile).Perm
        (bitsErrors 100001 "Bitwise operations are not supported for target Lua 5.1."
          [⟨1, 7⟩, ⟨1, 7⟩, ⟨1, 15⟩, ⟨2, 17⟩, ⟨3, 20⟩, ⟨3, 20⟩, ⟨3, 20⟩, ⟨3, 46⟩]) ∧
      ((bitsProgram.targeting .lua53).lacking bitsFile).Perm
        (bitsErrors 100002
          "Right shift operator is not supported for target Lua 5.3. Use \x60>>>\x60 instead."
          [⟨2, 17⟩, ⟨3, 20⟩]) ∧
      (bitsProgram.targeting .lua52).lacking bitsFile = [] ∧
      (bitsProgram.targeting .luaJit).lacking bitsFile = [] := by
  have hperm {ds es : List Diagnostic} (h : (ds.map some).Perm (es.map some)) : ds.Perm es :=
    (List.map_perm_map_iff fun _ _ => Option.some.inj).mp h
  have hfile : File.read "bits.ts" bitsText .es5 = bitsFile := by unfold bitsFile; rfl
  have hall := lacking_read bitsProgram "bits.ts" bitsText .es5
  rw [hfile] at hall
  obtain ⟨hlua51, hlua53, hlua52, hluaJit⟩ := hall
  refine ⟨hperm (hlua51.trans ?_), hperm (hlua53.trans ?_), hlua52, hluaJit⟩
  · decide +kernel
  · decide +kernel

end Program

end LuaSnippet
