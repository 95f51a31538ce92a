import LuaSnippet.Yaml.Mark

/-!
# Tags

A tag says what kind of thing a part of a document is. It is written out between angle brackets, or
as a handle, which stands for the start of a tag, with the rest behind it. Two handles are always
known, `!` and `!!`, and a document can declare others. In a tag a percent sign stands before the
two digits of a byte, and such bytes come in groups that have the form of one character.
-/

namespace LuaSnippet.Yaml

abbrev Tag := List UInt8

/-- A handle between its signs, and the start of the tags it stands for. -/
abbrev Handles := List (List Char × Tag)

namespace Tag

def ofAscii (s : String) : Tag :=
  s.toList.map fun c => c.toNat.toUInt8

/-- The sign that stands alone for the usual kind of a thing. -/
def usual : Tag := ofAscii "!"

/-- The start of the tags that are shared by all documents. -/
def shared : Tag := ofAscii "tag:yaml.org,2002:"

def null : Tag := shared ++ ofAscii "null"

def flag : Tag := shared ++ ofAscii "bool"

/-- The word behind the sign of a tag of this document alone, if it is a text. -/
def word? : Tag → Option String
  | [] => none
  | b :: rest =>
    if [b] = usual then String.fromUTF8? ⟨(if rest = [] then [b] else rest).toArray⟩ else none

/-! ### Reading -/

/-- How many more bytes a character has behind its first one. -/
def bytesBehind? (b : Nat) : Option Nat :=
  if b < 0x80 then some 0
  else if 0xC0 ≤ b && b < 0xE0 then some 1
  else if 0xE0 ≤ b && b < 0xF0 then some 2
  else if 0xF0 ≤ b && b < 0xF8 then some 3
  else none

/-- How many bytes are still to come behind a byte, where `left` were to come before it. -/
def bytesAfter? (left b : Nat) : Option Nat :=
  if left = 0 then bytesBehind? b
  else if 0x80 ≤ b && b < 0xC0 then some (left - 1)
  else none

/-- The signs of a tag beside the characters of names. -/
def signs : List Char :=
  [';', '/', '?', ':', '@', '&', '=', '+', '$', '.', '!', '~', '*', '\'', '(', ')']

/-- Whether a character stands for itself in a tag; some stand only in one that is written out. -/
def isTagChar (whole : Bool) (c : Char) : Bool :=
  isNameChar c || signs.contains c || (whole && (c = ',' || c = '[' || c = ']'))

/-- Reads the bytes of a tag, where `left` bytes of a character are still to come. -/
def bytes (whole : Bool) (left : Nat) : List Char → Option (Tag × List Char)
  | '%' :: a :: b :: rest =>
    (digitValue? a).bind fun x => (digitValue? b).bind fun y =>
      (bytesAfter? left (16 * x + y)).bind fun left =>
        (bytes whole left rest).map fun r => ((16 * x + y).toUInt8 :: r.1, r.2)
  | c :: rest =>
    if left ≠ 0 || c = '%' then none
    else if isTagChar whole c then
      (bytes whole 0 rest).map fun r => (c.toNat.toUInt8 :: r.1, r.2)
    else some ([], c :: rest)
  | [] => if left ≠ 0 then none else some ([], [])

def someBytes (whole : Bool) (cs : List Char) : Option (Tag × List Char) :=
  (bytes whole 0 cs).bind fun r => if r.1 = [] then none else some r

/-- A tag up to its first null byte, behind which nothing counts. -/
def cut (t : Tag) : Tag := t.takeWhile (· ≠ 0)

/-- Reads a handle: its first sign, a name, and a last sign if there is one. -/
def handle? : List Char → Option (List Char × List Char)
  | '!' :: rest =>
    match rest.dropWhile isNameChar with
    | '!' :: behind => some ('!' :: rest.takeWhile isNameChar ++ ['!'], behind)
    | behind => some ('!' :: rest.takeWhile isNameChar, behind)
  | _ => none

def isClosed (handle : List Char) : Bool :=
  2 ≤ handle.length && handle.getLast? = some '!'

/-- Reads a tag that is written out, behind its opening. -/
def readWhole (cs : List Char) : Option (Tag × List Char) :=
  (someBytes true cs).bind fun r =>
    match r.2 with
    | '>' :: rest => some (cut r.1, rest)
    | _ => none

/-- Reads a tag that starts with a handle. What looks like a handle without a last sign belongs to
the rest of the tag, and a sign with nothing behind it stands for itself. -/
def readShort (handles : Handles) (cs : List Char) : Option (Tag × List Char) :=
  (handle? cs).bind fun (handle, behind) =>
    if isClosed handle then
      (someBytes false behind).bind fun r =>
        (handles.lookup handle).map fun start => (start ++ cut r.1, r.2)
    else
      (bytes false 0 behind).bind fun r =>
        let t := cut (handle.tail.map (·.toNat.toUInt8) ++ r.1)
        if t = [] then some (usual, r.2)
        else (handles.lookup ['!']).map fun start => (start ++ t, r.2)

/-- Reads a tag. It ends where something is set apart, and within brackets also before a comma. -/
def read (flow : Bool) (handles : Handles) (cs : List Char) : Option (Tag × List Char) :=
  (match cs with
    | '!' :: '<' :: rest => readWhole rest
    | _ => readShort handles cs).bind fun r =>
      if isApart r.2 || (flow && r.2.head? = some ',') then some r else none

end Tag

def knownHandles : Handles := [(['!'], Tag.usual), (['!', '!'], Tag.shared)]

end LuaSnippet.Yaml
