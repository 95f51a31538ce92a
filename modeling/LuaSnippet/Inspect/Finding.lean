import LuaSnippet.Diagnostic

/-!
# Findings

What the inspection of a script can find wrong with the names and calls in it.
-/

namespace LuaSnippet.Inspect

inductive Cause where
  | unknownName (name : String)
  | unknownProperty (property space : String)
  | redeclared (name : String)
  | argumentCount (min : Nat) (max : Option Nat) (got : Nat)
  | argumentType (argument parameter : String)
  | noOverload
deriving DecidableEq, Repr

namespace Cause

def code : Cause → Nat
  | unknownName _ => 2304
  | unknownProperty _ _ => 2339
  | redeclared _ => 2451
  | argumentCount _ (some _) _ => 2554
  | argumentCount _ none _ => 2555
  | argumentType _ _ => 2345
  | noOverload => 2769

def text : Cause → String
  | unknownName name => "Cannot find name '" ++ name ++ "'."
  | unknownProperty property space =>
    "Property '" ++ property ++ "' does not exist on type 'typeof " ++ space ++ "'."
  | redeclared name => "Cannot redeclare block-scoped variable '" ++ name ++ "'."
  | argumentCount min (some max) got =>
    if max = min then
      "Expected " ++ toString min ++ " arguments, but got " ++ toString got ++ "."
    else
      "Expected " ++ toString min ++ "-" ++ toString max ++ " arguments, but got " ++
        toString got ++ "."
  | argumentCount min none got =>
    "Expected at least " ++ toString min ++ " arguments, but got " ++ toString got ++ "."
  | argumentType argument parameter =>
    "Argument of type '" ++ argument ++ "' is not assignable to parameter of type '" ++
      parameter ++ "'."
  | noOverload => "No overload matches this call."

end Cause

/-- A cause at a byte of the text. -/
structure Finding where
  cause : Cause
  offset : Nat
deriving DecidableEq, Repr

def Finding.diagnostic (f : Finding) (file text : String) : Diagnostic :=
  (Diagnostic.error f.cause.code f.cause.text).place file text f.offset

end LuaSnippet.Inspect
