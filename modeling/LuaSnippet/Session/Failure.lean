import LuaSnippet.Program.Host
import LuaSnippet.Dialect
import LuaSnippet.Text.Blank

/-!
# Failures of a run

A run fails because of the snippet, when there is anything to say against it, or because of what
stands around it: a declaration file that is not there or cannot be read, or an emitter that leaves
the snippet out. Only the first kind says anything about the snippet.
-/

namespace LuaSnippet.Session

open Program (Unreadable)

/-- Why a run gives no Lua text. -/
inductive Failure where
  | unmapped (dialect : Dialect)
  | diagnosed (dialect : Dialect) (diagnostics : List Diagnostic)
  | artifactMissing (file : String) (emitted : List String)
  | unreadable (cause : Unreadable)
deriving DecidableEq, Repr

namespace Failure

def message : Failure → String
  | unmapped d => "no declaration file is mapped for target " ++ d.displayName
  | diagnosed d ds =>
    "compiling for " ++ d.displayName ++ " produced diagnostics:\n" ++
      Text.join "\n" (ds.map fun x => "  " ++ x.display)
  | artifactMissing file emitted =>
    "no emitted file matches '" ++ file ++ "' (emitted: " ++ Text.join ", " emitted ++ ")"
  | unreadable u => u.message

/-- The name by which reports refer to a kind of failure. -/
def code : Failure → String
  | unmapped _ => "harness::config::missing_declaration"
  | diagnosed _ _ => "harness::diagnostics"
  | artifactMissing _ _ => "harness::missing_artifact"
  | unreadable u => u.code

def help : Failure → Option String
  | unmapped _ => some "add a declaration file for every target to the declaration map"
  | diagnosed _ _ => none
  | artifactMissing _ _ =>
    some "the backend must emit one file per non-declaration source file, keeping its name"
  | unreadable u => some u.help

def diagnosticTexts : Failure → List String
  | diagnosed _ ds => ds.map (·.text)
  | _ => []

/-- Whether a failure lies in what stands around the snippet. -/
def isDefect : Failure → Bool
  | diagnosed _ _ => false
  | _ => true

end Failure

end LuaSnippet.Session
