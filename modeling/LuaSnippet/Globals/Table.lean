import LuaSnippet.Script.File

/-!
# Global names

The names that ambient declarations give to a program. Functions declared again become overloads,
in the order of their declarations, and namespaces declared again become one; in every other case
the first declaration of a name stands. A table is kept in the order of its names, so that it does
not depend on the order in which different names were declared.
-/

namespace LuaSnippet.Globals

open Script (Signature Declaration Stmt File Expr)

/-- What a global name stands for. -/
inductive Entry where
  | functions (overloads : List Signature)
  | value (type : String)
  | space (members : List (String × Entry))

/-- Names with what they stand for, in the order of the names. -/
abbrev Table := List (String × Entry)

namespace Table

/-- What a name stands for. -/
def find? (t : Table) (name : String) : Option Entry :=
  match t with
  | [] => none
  | (n, e) :: rest => if n = name then some e else find? rest name

/-- The table in which one name stands for something new, which may depend on what it stood for. -/
def alter (t : Table) (name : String) (f : Option Entry → Entry) : Table :=
  match t with
  | [] => [(name, f none)]
  | (n, e) :: rest =>
    if n = name then (n, f (some e)) :: rest
    else if name < n then (name, f none) :: (n, e) :: rest
    else (n, e) :: alter rest name f

end Table

mutual

def declare : Declaration → Table → Table
  | .function s, t => t.alter s.name fun
    | some (.functions overloads) => .functions (overloads ++ [s])
    | some other => other
    | none => .functions [s]
  | .value name type, t => t.alter name fun
    | some other => other
    | none => .value type
  | .space name members, t => t.alter name fun
    | some (.space inner) => .space (declareAll members inner)
    | some other => other
    | none => .space (declareAll members [])

def declareAll : List Declaration → Table → Table
  | [], t => t
  | d :: ds, t => declareAll ds (declare d t)

end

/-- The ambient declaration that a statement makes. -/
def declarationOf : Stmt → Option Declaration
  | .declare d _ => some d
  | _ => none

def declarationsOf (f : File) : List Declaration :=
  f.statements.filterMap declarationOf

/-- The global names of some files, in their order. -/
def bind (files : List File) : Table :=
  declareAll (files.flatMap declarationsOf) []

/-- The overloads of what a call calls: a global function, or a function in a global namespace,
under a name that is not local. -/
def overloads? (t : Table) (isLocal : String → Bool) (callee : Expr) : Option (List Signature) :=
  match callee.bare with
  | .ident f =>
    if isLocal f.name then none
    else match t.find? f.name with
      | some (.functions overloads) => some overloads
      | _ => none
  | .member owner property => match owner.bare with
    | .ident space =>
      if isLocal space.name then none
      else match t.find? space.name with
        | some (.space members) => match Table.find? members property.name with
          | some (.functions overloads) => some overloads
          | _ => none
        | _ => none
    | _ => none
  | _ => none

end LuaSnippet.Globals
