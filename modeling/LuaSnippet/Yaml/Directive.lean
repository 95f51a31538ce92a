import LuaSnippet.Yaml.Tag

/-!
# Directives

Lines before a document that start with a percent sign. One says for which version of the format the
document is written, and each of the others declares a handle for tags. There are no other lines of
this kind.
-/

namespace LuaSnippet.Yaml

/-- What a line before a document says. -/
inductive Directive where
  | version (major minor : Nat)
  | handle (name : List Char) (start : Tag)
deriving DecidableEq, Repr

namespace Directive

/-- The most digits that a number of a version has. -/
def mostDigits : Nat := 9

def number (cs : List Char) : Option (Nat × List Char) :=
  let digits := cs.takeWhile Char.isDigit
  if digits = [] || mostDigits < digits.length then none
  else some (digits.foldl (fun n c => 10 * n + (c.toNat - 48)) 0, cs.dropWhile Char.isDigit)

def version? (cs : List Char) : Option (Directive × List Char) :=
  (number (cs.dropWhile isBlank)).bind fun (major, behind) =>
    match behind with
    | '.' :: rest => (number rest).map fun r => (.version major r.1, r.2)
    | _ => none

/-- Reads a declaration of a handle behind its word. The handle is the single sign, or has both its
signs. -/
def handle? (cs : List Char) : Option (Directive × List Char) :=
  (Tag.handle? (cs.dropWhile isBlank)).bind fun (name, behind) =>
    if (name = ['!'] || Tag.isClosed name) && behind.head?.any isBlank then
      (Tag.someBytes true (behind.dropWhile isBlank)).bind fun r =>
        if isApart r.2 then some (.handle name (Tag.cut r.1), r.2) else none
    else none

/-- Reads what stands behind the percent sign. -/
def body (cs : List Char) : Option (Directive × List Char) :=
  let word := cs.takeWhile isNameChar
  let behind := cs.dropWhile isNameChar
  if !isApart behind then none
  else if word = "YAML".toList then version? behind
  else if word = "TAG".toList then handle? behind
  else none

/-- What is left of a text where only blanks and a comment can stand before the end of the line. -/
def lineEnd? (cs : List Char) : Option (List Char) :=
  let rest := cs.dropWhile isBlank
  let rest := if rest.head? = some '#' then rest.dropWhile (!isBreak ·) else rest
  match rest with
  | [] => some []
  | c :: behind => if isBreak c then some behind else none

/-- Reads a directive behind its percent sign, with its line. -/
def read (cs : List Char) : Option (Directive × List Char) :=
  (body cs).bind fun r => (lineEnd? r.2).map fun rest => (r.1, rest)

end Directive

/-- What the lines before a document have said: whether there was a version, and the handles. -/
structure Preamble where
  versioned : Bool
  handles : Handles
deriving Repr

namespace Preamble

def empty : Preamble := ⟨false, []⟩

/-- What is known after one more line. The version has to be one of the two that there are, and
nothing can be said twice. -/
def add (p : Preamble) : Directive → Option Preamble
  | .version major minor =>
    if !p.versioned && major = 1 && (minor = 1 || minor = 2) then some { p with versioned := true }
    else none
  | .handle name start =>
    if p.handles.any fun h => h.1 = name then none
    else some { p with handles := (name, start) :: p.handles }

/-- All handles that can be used: those of the document go before those that are always known. -/
def allHandles (p : Preamble) : Handles := p.handles ++ knownHandles

end Preamble

end LuaSnippet.Yaml
