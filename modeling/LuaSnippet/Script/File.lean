import LuaSnippet.Diagnostic
import LuaSnippet.Script.Reading
import LuaSnippet.Script.Reference

/-!
# Script files

A named text with what reading it gives: its statements, the files it refers to, and what is wrong
with its form. A text that is no script has no statements and one diagnostic.
-/

namespace LuaSnippet.Script

/-- The edition of the language that a file is read in. -/
inductive Edition where
  | es5
  | es2015
deriving DecidableEq, Repr

/-- The number of every diagnostic about the form of a text. -/
def malformedCode : Nat := 1005

/-- A script file, as it was read. -/
structure File where
  name : String
  text : String
  edition : Edition
  statements : List Stmt
  references : List String
  diagnostics : List Diagnostic

namespace File

def malformed (name text : String) (r : Refusal) : Diagnostic :=
  (Diagnostic.error malformedCode r.message).place name text r.offset

/-- Reads a named text. -/
def read (name text : String) (edition : Edition) : File :=
  match Script.read text with
  | .ok statements => ⟨name, text, edition, statements, Reference.all text, []⟩
  | .error r => ⟨name, text, edition, [], Reference.all text, [malformed name text r]⟩

/-- Whether a file holds declarations only, by its name. -/
def isDeclaration (f : File) : Bool :=
  ".d.ts".toList.isSuffixOf f.name.toList

end File

end LuaSnippet.Script
