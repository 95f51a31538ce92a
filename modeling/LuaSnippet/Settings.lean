import LuaSnippet.Path
import LuaSnippet.Yaml.Record

/-!
# Settings

Where the declaration files, the default library and the cases are, and whether reports are
coloured. Whatever a file of settings does not say is as in the standard settings. Paths that do not
start at the root belong to the directory of the file that they were read from.
-/

namespace LuaSnippet

open Yaml (Part)

/-- The settings of a session and its reports. -/
structure Settings where
  declarationsRoot : String
  library : String
  casesRoot : String
  useColours : Bool
deriving DecidableEq, Repr

namespace Settings

/-- The settings that are used where nothing else is said; `home` is the directory of the bundled
files. -/
def standard (home : String) (useColours : Bool) : Settings :=
  ⟨Path.joinText home "fixtures/lua-types", Path.joinText home "fixtures/typescript/lib",
    Path.joinText home "cases", useColours⟩

def fieldNames : List String :=
  ["declarations_root", "lib_dir", "cases_root", "use_colors"]

/-- A path of a file of settings, as it is seen from where the file is. -/
def path? (place : String → String) (p : Part) : Option String :=
  p.text?.map place

/-- The settings that a part of a document describes, beside the given ones. -/
def ofPart (base : Settings) (place : String → String) (p : Part) : Part.Reading Settings := do
  let r ← p.record fieldNames
  let path := Part.scalar (path? place)
  let declarationsRoot ← r.fieldOr "declarations_root" path base.declarationsRoot
  let library ← r.fieldOr "lib_dir" path base.library
  let casesRoot ← r.fieldOr "cases_root" path base.casesRoot
  let useColours ← r.fieldOr "use_colors" (Part.scalar Part.flag?) base.useColours
  return ⟨declarationsRoot, library, casesRoot, useColours⟩

/-- The settings in a text, beside the given ones. -/
def ofText? (base : Settings) (place : String → String) (text : String) : Option Settings :=
  (Yaml.read? text).bind fun
    | none => some base
    | some n => Part.readRoot (base.ofPart place) n

/-- Why settings are not known. -/
inductive Fault where
  | unreadable (path : String)
  | malformed
deriving DecidableEq, Repr

namespace Fault

def message : Fault → String
  | unreadable path => "failed to read config " ++ path
  | malformed => "invalid harness config"

/-- The name by which reports refer to a kind of fault. -/
def code : Fault → String
  | unreadable _ => "harness::config::read"
  | malformed => "harness::config::parse"

end Fault

/-- The settings in a text, with paths as they stand. -/
def parse (base : Settings) (text : String) : Except Fault Settings :=
  match base.ofText? id text with
  | some s => .ok s
  | none => .error .malformed

/-- The settings in the file at a path, which cannot be read unless it is a text. -/
def load (base : Settings) (path : String) (text : Option String) : Except Fault Settings :=
  match text with
  | none => .error (.unreadable path)
  | some text =>
    match base.ofText? (Path.joinText (Path.directoryText path)) text with
    | some s => .ok s
    | none => .error .malformed

end Settings

end LuaSnippet
