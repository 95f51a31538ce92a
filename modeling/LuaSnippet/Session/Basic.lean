import LuaSnippet.Session.Supply
import LuaSnippet.Session.Declarations
import LuaSnippet.Session.Failure
import LuaSnippet.Program.Emission

/-!
# Sessions

A session compiles one snippet after the other. A run loads the snippet, the declaration file of
its dialect and the default library, and gives the Lua text of the snippet if there is nothing to
say against any file. All that one run leaves to the next are the texts in the store.
-/

namespace LuaSnippet

open Session

/-- What runs have in common, and what they leave behind. -/
structure Session where
  /-- The directory of the library files. -/
  library : String
  /-- How a loaded program becomes Lua. -/
  emit : Program → Emission
  declarations : Declarations
  store : Store

namespace Session

def start (declarationsRoot library : String) : Session :=
  ⟨library, Program.emit, .ofRoot declarationsRoot, .empty⟩

/-- How snippets are compiled for a dialect. -/
def options (d : Dialect) : Program.Options :=
  ⟨.es5, d, true, false⟩

/-- The Lua text of the snippet among some artifacts. -/
def snippetLua (artifacts : List Artifact) : Except Failure String :=
  match artifacts.find? fun a => a.name = snippetName with
  | some a => .ok (Text.trim a.lua)
  | none => .error (.artifactMissing snippetName (artifacts.map (·.name)))

/-- What a loaded program and its emission come to. -/
def outcome (d : Dialect) (p : Program) (e : Emission) : Except Failure String :=
  match p.allDiagnostics ++ e.diagnostics with
  | [] => snippetLua e.artifacts
  | ds => .error (.diagnosed d ds)

/-- Compiles a snippet for a dialect. -/
def run (s : Session) (disk : Disk) (d : Dialect) (snippet : String) :
    Except Failure String × Session :=
  match s.declarations d with
  | none => (.error (.unmapped d), s)
  | some path =>
    match Program.create (host s.library disk snippet) (supplyBound disk s.store) (options d)
      [snippetName, path] s.store with
    | (.ok p, store) => (outcome d p (s.emit p), { s with store })
    | (.error u, store) => (.error (.unreadable u), { s with store })

end Session

end LuaSnippet
