import LuaSnippet.Text.Position

/-!
# Diagnostics

What the compiler says about a file: a severity, a number, a sentence, and mostly a place.
-/

namespace LuaSnippet

/-- How serious a diagnostic is. -/
inductive Severity where
  | warning
  | error
  | suggestion
  | message
deriving DecidableEq, Repr

def Severity.word : Severity → String
  | .warning => "warning"
  | .error => "error"
  | .suggestion => "suggestion"
  | .message => "message"

/-- A place in a named file. -/
structure Location where
  file : String
  position : Text.Position
deriving DecidableEq, Repr

/-- The place as it stands before a message. -/
def Location.display (l : Location) : String :=
  l.file ++ "(" ++ toString l.position.line ++ "," ++ toString l.position.column ++ "): "

/-- One message of the compiler. -/
structure Diagnostic where
  severity : Severity
  code : Nat
  text : String
  location : Option Location
deriving DecidableEq, Repr

namespace Diagnostic

/-- An error without a place. -/
def error (code : Nat) (text : String) : Diagnostic :=
  ⟨.error, code, text, none⟩

/-- The diagnostic placed at a byte offset of a file's text; there is none for an offset inside a
character. -/
def at? (d : Diagnostic) (file text : String) (offset : Nat) : Option Diagnostic :=
  (Text.position? text offset).map fun p => { d with location := some ⟨file, p⟩ }

/-- The diagnostic placed at a byte offset of a file's text. Offsets that the compiler computes are
never inside a character; such a one would stand for the start of the text. -/
def place (d : Diagnostic) (file text : String) (offset : Nat) : Diagnostic :=
  { d with location := some ⟨file, (Text.position? text offset).getD .first⟩ }

def isError (d : Diagnostic) : Bool :=
  d.severity = .error

/-- A diagnostic on one line: place, severity, number and sentence. -/
def display (d : Diagnostic) : String :=
  (match d.location with | some l => l.display | none => "") ++
    d.severity.word ++ " TS" ++ toString d.code ++ ": " ++ d.text

end Diagnostic

end LuaSnippet
