import LuaSnippet.Yaml.Node

/-!
# Values in documents

What a part of a document says to a reader who knows what to look for. A text is any scalar, however
it is written, and a flag is one of the plain words for it. A part that is left out stands for an
empty list or an empty record, and a plain word for nothing stands for a value that is not given. A
choice between words is a text, or a tag with nothing behind it.

A part is seen together with the nodes that aliases stand for, so that an alias says what its node
says. How often a reader follows an alias is counted, and a document in which that happens out of
all proportion is refused.
-/

namespace LuaSnippet.Yaml

/-- A part of a document, and the nodes of the whole document that have a number. -/
structure Part where
  node : Node
  anchored : List (Nat × Node)

namespace Part

/-- What is read off a part, if it can be read; the number counts the aliases followed so far. -/
abbrev Reading (α : Type) := StateT Nat Option α

def found {α : Type} (a : Option α) : Reading α := StateT.lift a

def numbered? (p : Part) (number : Nat) : Option Node :=
  p.anchored.reverse.lookup number

/-- A node of the same document, which may stand behind an alias. -/
def other (p : Part) : Node → Reading Part
  | .alias number => do
    modify (· + 1)
    let n ← found (p.numbered? number)
    return { p with node := n }
  | n => return { p with node := n }

/-- How many aliases a reader may follow for each part of a document. -/
def aliasesPerPart : Nat := 100

def readRoot {α : Type} (f : Part → Reading α) (n : Node) : Option α :=
  ((f ⟨n, n.anchored⟩).run 0).bind fun (a, followed) =>
    if followed ≤ aliasesPerPart * n.size then some a else none

/-! ### Scalars -/

def text? (p : Part) : Option String :=
  match p.node with
  | .scalar _ text _ => some text
  | _ => none

def nullWords : List String := ["null", "Null", "NULL", "~"]

/-- Whether a part gives a value: a plain scalar may say that there is none. What has the tag of
nothing must say so with a word. -/
def isGiven? (p : Part) : Option Bool :=
  match p.node with
  | .scalar q text .plain =>
    match q.tag with
    | none => some (text ≠ "" && !nullWords.contains text)
    | some t =>
      if t ≠ Tag.null then some true else if nullWords.contains text then some false else none
  | _ => some true

def optionalText? (p : Part) : Option (Option String) :=
  p.isGiven?.bind fun given => if given then p.text?.map some else some none

/-- A flag: one of the plain words, or one of them as a literal with the tag of flags. -/
def flag? (p : Part) : Option Bool :=
  match p.node with
  | .scalar q text style =>
    if style = .plain || (style = .literal && q.tag = some Tag.flag) then
      if ["true", "True", "TRUE"].contains text then some true
      else if ["false", "False", "FALSE"].contains text then some false
      else none
    else none
  | _ => none

/-- The word of a choice: a tag of the document alone, with nothing behind it, or else the text. -/
def choice? (p : Part) : Option String :=
  match p.node with
  | .scalar q text style =>
    match q.tag.bind Tag.word? with
    | some word =>
      if style = .plain && (text = "" || nullWords.contains text) then some word else none
    | none => some text
  | _ => none

def scalar {α : Type} (f : Part → Option α) (p : Part) : Reading α := found (f p)

/-! ### Collections -/

def isEmpty (p : Part) : Bool :=
  match p.node with
  | .scalar _ text style => style = .plain && text = ""
  | _ => false

def list {α : Type} (f : Part → Reading α) (p : Part) : Reading (List α) :=
  match p.node with
  | .seq _ items => items.mapM fun n => do f (← p.other n)
  | _ => found (if p.isEmpty then some [] else none)

def pairs {α β : Type} (f : Part → Reading α) (g : Part → Reading β) (p : Part) :
    Reading (List (α × β)) :=
  match p.node with
  | .map _ pairs => pairs.mapM fun q => do
    let k ← f (← p.other q.1)
    let v ← g (← p.other q.2)
    return (k, v)
  | _ => found (if p.isEmpty then some [] else none)

/-- The names and values of a record, whose values are not looked at. -/
def fields (p : Part) : Reading (List (String × Node)) :=
  match p.node with
  | .map _ pairs => pairs.mapM fun q => do
    let name ← found (← p.other q.1).text?
    return (name, q.2)
  | _ => found (if p.isEmpty then some [] else none)

/-! ### Records -/

/-- The known fields of a record, in a document. -/
structure Record where
  whole : Part
  known : List (String × Node)

/-- The known fields of a part. Other fields are passed over, but a known field that comes twice
spoils the record. -/
def record (names : List String) (p : Part) : Reading Record := do
  let known := (← p.fields).filter fun f => names.contains f.1
  if (known.map (·.1)).Nodup then return ⟨p, known⟩ else found none

/-- A field that may be missing, with the value that stands for it. -/
def Record.fieldOr {α : Type} (r : Record) (name : String) (f : Part → Reading α) (dflt : α) :
    Reading α :=
  match r.known.lookup name with
  | some n => do f (← r.whole.other n)
  | none => return dflt

def Record.field {α : Type} (r : Record) (name : String) (f : Part → Reading α) : Reading α :=
  match r.known.lookup name with
  | some n => do f (← r.whole.other n)
  | none => found none

end Part

end LuaSnippet.Yaml
