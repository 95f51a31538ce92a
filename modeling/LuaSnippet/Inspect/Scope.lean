import LuaSnippet.Script.Tree
import LuaSnippet.Inspect.Finding

/-!
# Scopes

The local names at a place of a script, scope by scope, the innermost first. A scope takes a name
once; it takes it again only if the name was not and is not block scoped, which is so for parameters
and for variables introduced by `var`.
-/

namespace LuaSnippet.Inspect

open Script (Ident Param Stmt)

/-- A local name, and whether it is block scoped. -/
structure Local where
  name : String
  blockScoped : Bool
deriving DecidableEq, Repr

abbrev Scope := List Local

/-- The scopes around a place, the innermost first. -/
abbrev Scopes := List Scope

namespace Scope

def find? (s : Scope) (name : String) : Option Local :=
  List.find? (fun l => l.name = name) s

def ofParams (params : List Param) : Scope :=
  params.map fun p => ⟨p.name, false⟩

end Scope

namespace Scopes

/-- Whether a name is local. -/
def binds (ss : Scopes) (name : String) : Bool :=
  ss.any fun s => (s.find? name).isSome

/-- Declares a name in the innermost scope. -/
def declare (ss : Scopes) (blockScoped : Bool) (id : Ident) : List Finding × Scopes :=
  match ss with
  | [] => ([], [])
  | s :: outer => match s.find? id.name with
    | none => ([], (⟨id.name, blockScoped⟩ :: s) :: outer)
    | some l =>
      if l.blockScoped || blockScoped then ([⟨.redeclared id.name, id.span.start⟩], s :: outer)
      else ([], s :: outer)

/-- Declares several names, one after the other. -/
def declareAll (ss : Scopes) (blockScoped : Bool) : List Ident → List Finding × Scopes
  | [] => ([], ss)
  | id :: ids =>
    let first := ss.declare blockScoped id
    let others := first.2.declareAll blockScoped ids
    (first.1 ++ others.1, others.2)

end Scopes

/-- The name of the function that a statement declares. -/
def functionName? : Stmt → Option Ident
  | .function name _ _ _ => some name
  | _ => none

/-- Opens a scope for some statements: it starts with the given names, and functions are declared
before the first statement. -/
def openScope (ss : Scopes) (s : Scope) (body : List Stmt) : List Finding × Scopes :=
  Scopes.declareAll (s :: ss) true (body.filterMap functionName?)

end LuaSnippet.Inspect
