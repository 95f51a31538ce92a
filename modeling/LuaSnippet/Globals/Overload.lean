import LuaSnippet.Globals.Table
import LuaSnippet.Text.Numeral

/-!
# Overloads

A call takes the first overload that accepts its arguments. Only literals are held against the type
of their parameter; every other argument fits everywhere. Spread arguments stand for any number of
values, so they and what follows them are not looked at.
-/

namespace LuaSnippet.Globals

open Script (Signature Param Expr Arg)
open LuaSnippet.Text (trim)

/-- Why a call is not accepted. -/
inductive Mismatch where
  | arity (min : Nat) (max : Option Nat) (got : Nat)
  | argument (index : Nat) (argument parameter : String)
  | noOverload
deriving DecidableEq, Repr

/-- The value of a literal argument. -/
inductive Literal where
  | string (value : String)
  | number (text : String)
  | bool (value : Bool)
deriving DecidableEq, Repr

namespace Literal

/-- The literal that an expression is. -/
def of? (e : Expr) : Option Literal :=
  match e.bare with
  | .string value _ => some (.string value)
  | .number text _ => some (.number text)
  | .bool value _ => some (.bool value)
  | _ => none

def display : Literal → String
  | string value => "\"" ++ value ++ "\""
  | number text => text
  | bool true => "true"
  | bool false => "false"

def isString : Literal → Bool
  | string _ => true
  | _ => false

def isNumber : Literal → Bool
  | number _ => true
  | _ => false

def isBool : Literal → Bool
  | bool _ => true
  | _ => false

end Literal

/-- What stands between two quotes of one kind that begin and end a text. -/
def unquote? (q : Char) (cs : List Char) : Option (List Char) :=
  match cs with
  | [] => none
  | c :: rest =>
    if c = q ∧ rest.getLast? = some q then some rest.dropLast else none

def stringType? (type : String) : Option String :=
  ((unquote? '"' type.toList).or (unquote? '\'' type.toList)).map String.ofList

/-- Whether a literal fits one member of a union type. -/
def Literal.fitsMember (l : Literal) (member : String) : Bool :=
  match stringType? member with
  | some value => l = .string value
  | none =>
    if member = "string" then l.isString
    else if member = "number" then l.isNumber
    else if member = "boolean" then l.isBool
    else if member = "true" then l = .bool true
    else if member = "false" then l = .bool false
    else if Text.Numeral.isNumeral member then l = .number member
    else true

/-- The parts of a text between the signs of a union. -/
def unionParts : List Char → List (List Char)
  | [] => [[]]
  | c :: cs =>
    if c = '|' then [] :: unionParts cs
    else match unionParts cs with
      | [] => [[c]]
      | p :: ps => (c :: p) :: ps

def unionMembers (type : String) : List String :=
  (unionParts type.toList).map fun p => trim (String.ofList p)

/-- Whether a literal fits a type. -/
def Literal.fits (l : Literal) (type : String) : Bool :=
  (unionMembers type).any l.fitsMember

/-- A type without one pair of brackets at its end. -/
def elementType (type : String) : String :=
  if "[]".toList.isSuffixOf type.toList then
    trim (String.ofList (type.toList.take (type.toList.length - 2)))
  else trim type

def restParam (s : Signature) : Option Param :=
  s.params.find? fun p => p.isRest

/-- The parameter that takes the argument with a given index. -/
def paramAt (s : Signature) (index : Nat) : Option Param :=
  match s.params[index]? with
  | some p => if p.isRest then restParam s else some p
  | none => restParam s

/-- The type that the argument with a given index has to fit; for a rest parameter it is the type
of its elements. -/
def parameterType (s : Signature) (index : Nat) : Option String :=
  (paramAt s index).bind fun p => p.type?.map fun type =>
    if p.isRest then elementType (trim type) else trim type

/-- What is wrong with one argument. -/
def argumentMismatch (s : Signature) (index : Nat) (a : Arg) : Option Mismatch :=
  match parameterType s index, Literal.of? a.value with
  | some type, some l => if l.fits type then none else some (.argument index l.display type)
  | _, _ => none

/-- What is wrong with the arguments from an index on, up to the first spread one. -/
def argumentsMismatch (s : Signature) (index : Nat) : List Arg → Option Mismatch
  | [] => none
  | a :: rest =>
    if a.isSpread then none
    else (argumentMismatch s index a).or (argumentsMismatch s (index + 1) rest)

/-- Whether a number of arguments is accepted. -/
def acceptsCount (s : Signature) (count : Nat) : Bool :=
  s.minArgs ≤ count && (match s.maxArgs with | some max => count ≤ max | none => true)

/-- What is wrong with a call of one signature. -/
def mismatch (s : Signature) (args : List Arg) : Option Mismatch :=
  if !args.any (·.isSpread) && !acceptsCount s args.length then
    some (.arity s.minArgs s.maxArgs args.length)
  else argumentsMismatch s 0 args

/-- The first signature that accepts some arguments, with its index counted from `index`. -/
def firstAccepting (args : List Arg) (index : Nat) : List Signature → Option (Nat × Signature)
  | [] => none
  | s :: rest =>
    match mismatch s args with
    | none => some (index, s)
    | some _ => firstAccepting args (index + 1) rest

/-- Why none of some overloads accepts a call: with one signature it is that one's own reason. -/
def refusal (overloads : List Signature) (args : List Arg) : Mismatch :=
  match overloads with
  | [s] => (mismatch s args).getD .noOverload
  | _ => .noOverload

/-- The overload that a call takes, with its index. -/
def select (overloads : List Signature) (args : List Arg) : Except Mismatch (Nat × Signature) :=
  match firstAccepting args 0 overloads with
  | some found => .ok found
  | none => .error (refusal overloads args)

end LuaSnippet.Globals
