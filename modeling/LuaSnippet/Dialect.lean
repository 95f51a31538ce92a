/-!
# Lua dialects

The Lua versions that a snippet can be compiled for. The set is closed and has one order, in which
every report lists them.
-/

namespace LuaSnippet

/-- A Lua version that snippets are compiled for. -/
inductive Dialect where
  | lua51
  | lua52
  | lua53
  | luaJit
deriving DecidableEq, Repr

namespace Dialect

/-- Every dialect, in reporting order. -/
def all : List Dialect := [lua51, lua52, lua53, luaJit]

/-- The short label, used in the names of declaration files and in titles. -/
def label : Dialect → String
  | lua51 => "5.1"
  | lua52 => "5.2"
  | lua53 => "5.3"
  | luaJit => "jit"

def displayName : Dialect → String
  | lua51 => "Lua 5.1"
  | lua52 => "Lua 5.2"
  | lua53 => "Lua 5.3"
  | luaJit => "LuaJIT"

def ofLabel? (label : String) : Option Dialect :=
  all.find? (·.label = label)

/-- The place of a dialect in the reporting order. -/
def index : Dialect → Nat
  | lua51 => 0
  | lua52 => 1
  | lua53 => 2
  | luaJit => 3

/-- The dialect that is meant where none is named. -/
def standard : Dialect := lua53

/-- The title of a group of checks for this dialect. -/
def title (d : Dialect) (name : String) : String :=
  "Lua version " ++ d.label ++ " / " ++ name

def declarationFile (d : Dialect) : String :=
  d.label ++ ".d.ts"

end Dialect

end LuaSnippet
