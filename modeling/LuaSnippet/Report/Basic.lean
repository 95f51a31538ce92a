import LuaSnippet.Report.Difference
import LuaSnippet.Report.Paint
import LuaSnippet.Case.Verdict

/-!
# Reports

A report has a line for every result, the reason below each that failed, the differences where the
Lua text was not the expected one, and a line with the numbers at the end.
-/

namespace LuaSnippet.Report

/-- How many results passed, failed and were left out. -/
structure Counts where
  passed : Nat
  failed : Nat
  omitted : Nat
deriving DecidableEq, Repr

namespace Counts

def add (n : Counts) : Verdict → Counts
  | .pass => { n with passed := n.passed + 1 }
  | .fail _ _ => { n with failed := n.failed + 1 }
  | .omitted _ => { n with omitted := n.omitted + 1 }

/-- The numbers of some results. -/
def of (results : List Result) : Counts :=
  results.foldl (fun n r => n.add r.verdict) ⟨0, 0, 0⟩

end Counts

/-- The lines of a text behind a sign, each with its line end. -/
def signed (sign text : String) : String :=
  Text.join "" ((Text.lines text).map fun l => sign ++ l ++ "\n")

def changeText (colours : Bool) : Change → String
  | .same text => signed "   " text
  | .removed text => Colour.red.paint colours false (signed "  -" text)
  | .added text => Colour.green.paint colours false (signed "  +" text)

/-- The differences between the expected and the actual text. -/
def mismatchText (colours : Bool) (expected actual : String) : String :=
  Text.join "" ((Change.between expected actual).map (changeText colours))

def subject (r : Result) : String :=
  " " ++ r.dialect.title r.name ++ " [" ++ r.file ++ "]"

def resultText (colours : Bool) (r : Result) : String :=
  match r.verdict with
  | .pass => Colour.green.paint colours true "PASS" ++ subject r ++ "\n"
  | .omitted reason =>
    Colour.yellow.paint colours true "SKIP" ++ subject r ++ " (" ++ reason ++ ")\n"
  | .fail error mismatch =>
    Colour.red.paint colours true "FAIL" ++ subject r ++ "\n" ++ signed "  " error ++
      (match mismatch with
        | some (expected, actual) => mismatchText colours expected actual
        | none => "")

def countsText (colours : Bool) (n : Counts) (total : Nat) : String :=
  "total " ++ toString total ++ ", " ++
    Colour.green.paint colours true "passed" ++ " " ++ toString n.passed ++ ", " ++
    Colour.red.paint colours true "failed" ++ " " ++ toString n.failed ++ ", " ++
    Colour.yellow.paint colours true "skipped" ++ " " ++ toString n.omitted ++ "\n"

def render (colours : Bool) (results : List Result) : String :=
  Text.join "" (results.map (resultText colours)) ++ "\n" ++
    countsText colours (Counts.of results) results.length

end LuaSnippet.Report
