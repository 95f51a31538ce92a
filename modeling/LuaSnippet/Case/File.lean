import LuaSnippet.Case.Basic
import LuaSnippet.Yaml.Record

/-!
# Case files

A case file is a list of cases. Each of them has a name and an input, and everything else in it may
be left out.
-/

namespace LuaSnippet

open Yaml (Part)

namespace Case

def fieldNames : List String :=
  ["name", "input", "expected", "expected_by_target", "expect_error", "targets", "skip", "only"]

def dialectOf? (p : Part) : Option Dialect :=
  p.choice?.bind Dialect.ofLabel?

/-- The case that a part of a document describes. -/
def ofPart (p : Part) : Part.Reading Case := do
  let r ← p.record fieldNames
  let name ← r.field "name" (Part.scalar Part.text?)
  let input ← r.field "input" (Part.scalar Part.text?)
  let expected ← r.fieldOr "expected" (Part.scalar Part.optionalText?) none
  let expectedBy ← r.fieldOr "expected_by_target"
    (Part.pairs (Part.scalar dialectOf?) (Part.scalar Part.text?)) []
  let expectedError ← r.fieldOr "expect_error" (Part.scalar Part.optionalText?) none
  let dialects ← r.fieldOr "targets" (Part.list (Part.scalar dialectOf?)) []
  let skip ← r.fieldOr "skip" (Part.scalar Part.flag?) false
  let only ← r.fieldOr "only" (Part.scalar Part.flag?) false
  return ⟨name, input, expected, expectedBy.reverse, expectedError, dialects, skip, only⟩

/-- The cases in a text; a text with nothing in it has none. -/
def ofText? (text : String) : Option (List Case) :=
  (Yaml.read? text).bind fun
    | none => some []
    | some n => Part.readRoot (Part.list ofPart) n

end Case

/-- A file that cases are read from; one that is no text cannot be read. -/
structure CaseFile where
  path : String
  text : Option String
deriving DecidableEq, Repr

namespace CaseFile

/-- Why the cases of a file are not known. -/
inductive Fault where
  | unreadable (path : String)
  | malformed (path : String)
deriving DecidableEq, Repr

namespace Fault

def message : Fault → String
  | unreadable path => "failed to read case file " ++ path
  | malformed path => "failed to parse case file " ++ path

/-- The name by which reports refer to a kind of fault. -/
def code : Fault → String
  | unreadable _ => "harness::suite::read"
  | malformed _ => "harness::suite::parse"

def help : Fault → Option String
  | unreadable _ => none
  | malformed _ =>
    some ("target labels such as \"5.1\" must be quoted so YAML does not read them as numbers")

end Fault

/-- The cases of a file. -/
def cases (f : CaseFile) : Except Fault (List Case) :=
  match f.text with
  | none => .error (.unreadable f.path)
  | some text =>
    match Case.ofText? text with
    | some cases => .ok cases
    | none => .error (.malformed f.path)

end CaseFile

end LuaSnippet
