import LuaSnippet.Case.Basic
import LuaSnippet.Session.Basic

/-!
# Verdicts

Trying a case for a dialect comes to a verdict. A case passes if its snippet gives the expected Lua
text, up to blanks around it, or if it is expected to fail and the failure is one that says something
about the snippet and shows the expected text.
-/

namespace LuaSnippet

open Session (Failure)

/-- What trying a case comes to. -/
inductive Verdict where
  | pass
  /-- A failure, with the expected and the actual Lua text if that is where it lies. -/
  | fail (error : String) (mismatch : Option (String × String))
  | omitted (reason : String)
deriving DecidableEq, Repr

def Verdict.isFailure : Verdict → Bool
  | fail _ _ => true
  | _ => false

/-- A case that was tried for a dialect, or left out. -/
structure Result where
  file : String
  name : String
  dialect : Dialect
  verdict : Verdict
deriving DecidableEq, Repr

namespace Case

/-- The verdict on a Lua text where one was expected, or neither a text nor an error was. -/
def judgeText (expected : Option String) (lua : String) : Verdict :=
  match expected with
  | some text =>
    if Text.trim text = lua then .pass
    else .fail "output did not match expected" (some (Text.trim text, lua))
  | none => .fail "case has neither 'expected' nor 'expect_error'" none

/-- Whether a failure is one that an expected error is met by. -/
def meetsError (text : String) (f : Failure) : Bool :=
  !f.isDefect && Text.contains f.message text

def judge (c : Case) (d : Dialect) (outcome : Except Failure String) : Verdict :=
  match outcome, c.expectedError with
  | .ok lua, none => judgeText (c.expectedFor d) lua
  | .ok lua, some text =>
    .fail ("expected error '" ++ text ++ "' but compilation succeeded with:\n" ++ lua) none
  | .error f, some text => if meetsError text f then .pass else .fail f.message none
  | .error f, none => .fail f.message none

/-- Tries a case for a dialect. -/
def check (c : Case) (s : Session) (disk : Session.Disk) (file : String) (d : Dialect) :
    Result × Session :=
  let r := s.run disk d c.input
  (⟨file, c.name, d, c.judge d r.1⟩, r.2)

end Case

end LuaSnippet
