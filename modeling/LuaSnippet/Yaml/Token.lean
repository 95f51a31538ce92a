import LuaSnippet.Yaml.Plain
import LuaSnippet.Yaml.Quoted
import LuaSnippet.Yaml.Block
import LuaSnippet.Yaml.Directive

/-!
# Tokens of a document

A document as a list of tokens, in which indentation has become brackets: a collection opens where
something stands further in than what is around it, and closes before the first thing that does
not. What stands before a colon is known to be a key only when the colon is met, so a place where a
key can start is remembered, and the token for the key is put in there afterwards.

Tokens know nothing of names: an anchor and the aliases of it have a number in common, and a tag has
lost its handle. An anchor takes the count of the names before it as its number. So the number of a
name that comes again is also that of the next new name.
-/

namespace LuaSnippet.Yaml

/-- How a scalar is written. -/
inductive Style where
  | plain
  | single
  | double
  | literal
  | folded
deriving DecidableEq, Repr

/-- The parts that a document is read as. -/
inductive Token where
  | documentStart
  | documentEnd
  | seqStart
  | mapStart
  | blockEnd
  | flowSeqStart
  | flowSeqEnd
  | flowMapStart
  | flowMapEnd
  | entry
  | comma
  | key
  | value
  | scalar (text : String) (style : Style)
  /-- A name for the node that follows. -/
  | anchor (number : Nat)
  /-- A name in place of a node. -/
  | alias (number : Nat)
  /-- What kind of thing the node that follows is. -/
  | tag (tag : Tag)
  /-- A line before a document. -/
  | directive
deriving DecidableEq, Repr

/-- The names of anchors, each with the number that it had last. -/
abbrev Names := List (String × Nat)

def Names.define (names : Names) (name : String) : Names :=
  (name, names.length) :: names.filter fun n => n.1 ≠ name

structure KeyStart where
  mark : Mark
  /-- The number of tokens before it. -/
  count : Nat
  /-- Whether nothing but a key can stand there. -/
  required : Bool
deriving DecidableEq, Repr

/-- A reader of tokens on its way. -/
structure Lexer where
  mark : Mark
  rest : List Char
  /-- The columns of the open block collections, the innermost first. -/
  indents : List Nat
  /-- Whether a key can start at this place. -/
  keyAllowed : Bool
  /-- Where a key may have started, for each open bracket and for what is outside, the innermost
  first. -/
  keys : List (Option KeyStart)
  tokens : Array Token
  preamble : Preamble
  names : Names

namespace Lexer

def longestKey : Nat := 1024

def start (cs : List Char) : Lexer :=
  ⟨.start, cs, [], true, [none], #[], .empty, []⟩

def inFlow (s : Lexer) : Bool :=
  match s.keys with
  | _ :: _ :: _ => true
  | _ => false

def emit (s : Lexer) (t : Token) : Lexer :=
  { s with tokens := s.tokens.push t }

/-- Goes some characters of one byte further on the line. -/
def skip (s : Lexer) (n : Nat) : Lexer :=
  { s with mark := s.mark.right n, rest := s.rest.drop n }

/-- Goes on to where a text is left. -/
def goTo (s : Lexer) (rest : List Char) : Lexer :=
  { s with
    mark := (s.rest.take (s.rest.length - rest.length)).foldl Mark.after s.mark
    rest := rest }

/-- Says whether a key can start at this place. -/
def allowKey (s : Lexer) (b : Bool) : Lexer :=
  { s with keyAllowed := b }

/-- Goes to the next place where something can stand, over blanks, comments and line ends. Tabs are
no blanks where a block collection can start. -/
def skipBlanks (flow allowed comment : Bool) (m : Mark) : List Char → Bool × Mark × List Char
  | [] => (allowed, m, [])
  | c :: rest =>
    if isBreak c then skipBlanks flow (allowed || !flow) false (m.after c) rest
    else if comment then skipBlanks flow allowed true (m.after c) rest
    else if c = ' ' || (c = '\t' && (flow || !allowed)) || (c = byteOrderMark && m.column = 0) then
      skipBlanks flow allowed false (m.after c) rest
    else if c = '#' then skipBlanks flow allowed true (m.after c) rest
    else (allowed, m, c :: rest)

/-- The reader at the next place where something can stand. -/
def toNext (s : Lexer) : Lexer :=
  let (allowed, m, rest) := skipBlanks s.inFlow s.keyAllowed false s.mark s.rest
  { s with keyAllowed := allowed, mark := m, rest := rest }

/-! ### Indentation -/

/-- Closes the block collections that stand further in than a column. -/
def unroll (column : Nat) : List Nat → Array Token → List Nat × Array Token
  | [], tokens => ([], tokens)
  | i :: outer, tokens =>
    if column < i then unroll column outer (tokens.push .blockEnd) else (i :: outer, tokens)

/-- Closes the block collections that the place is not in. -/
def close (s : Lexer) : Lexer :=
  if s.inFlow then s
  else
    let (indents, tokens) := unroll s.mark.column s.indents s.tokens
    { s with indents, tokens }

/-- Closes all block collections. -/
def closeAll (s : Lexer) : Lexer :=
  if s.inFlow then s
  else { s with indents := [], tokens := s.indents.foldl (fun ts _ => ts.push .blockEnd) s.tokens }

/-- Puts a token behind the first `count` tokens. -/
def insert (s : Lexer) (count : Nat) (t : Token) : Lexer :=
  { s with tokens := (s.tokens.extract 0 count).push t ++ s.tokens.extract count s.tokens.size }

/-- Whether a column is further in than every open block collection. -/
def isDeeper (s : Lexer) (column : Nat) : Bool :=
  match s.indents with
  | i :: _ => i < column
  | [] => true

/-- Opens a block collection at a column, unless one is open there. -/
def openAt (s : Lexer) (column count : Nat) (t : Token) : Lexer :=
  if !s.inFlow && s.isDeeper column then
    { s.insert count t with indents := column :: s.indents }
  else s

/-! ### Keys -/

/-- The place where a key may have started, at the innermost level. -/
def pending (s : Lexer) : Option KeyStart :=
  s.keys.head?.bind id

def setPending (s : Lexer) (k : Option KeyStart) : Lexer :=
  { s with keys := k :: s.keys.tail }

/-- Forgets the place where a key may have started; it cannot be forgotten where a key has to
stand. -/
def dropKey (s : Lexer) : Option Lexer :=
  match s.pending with
  | some k => if k.required then none else some (s.setPending none)
  | none => some s

/-- Whether a key that started at a place can still end at this one. -/
def isFresh (s : Lexer) (k : KeyStart) : Bool :=
  k.mark.line = s.mark.line && s.mark.index ≤ k.mark.index + longestKey

/-- Forgets all places where a key started too long ago. -/
def dropStale (s : Lexer) : Option Lexer :=
  (s.keys.mapM fun
    | some k => if s.isFresh k then some (some k) else if k.required then none else some none
    | none => some none).map fun keys => { s with keys := keys }

/-- Remembers that a key may start at this place. -/
def noteKey (s : Lexer) : Option Lexer :=
  if s.keyAllowed then
    s.dropKey.map fun s =>
      s.setPending (some ⟨s.mark, s.tokens.size,
        !s.inFlow && s.indents.head? = some s.mark.column⟩)
  else some s

/-! ### One token -/

/-- A line that begins or ends a document. -/
def fence (s : Lexer) (t : Token) : Option Lexer :=
  s.closeAll.dropKey.map fun s => ((s.allowKey false).skip 3).emit t

def directive (s : Lexer) : Option Lexer :=
  s.closeAll.dropKey.bind fun s =>
    (Directive.read (s.rest.drop 1)).bind fun (d, rest) =>
      (s.preamble.add d).map fun p =>
        ({ s with preamble := p, keyAllowed := false }.goTo rest).emit .directive

def openFlow (s : Lexer) (t : Token) : Option Lexer :=
  s.noteKey.map fun s => ({ s with keys := none :: s.keys, keyAllowed := true }.skip 1).emit t

def closeFlow (s : Lexer) (t : Token) : Option Lexer :=
  s.dropKey.map fun s =>
    let keys := if s.inFlow then s.keys.tail else s.keys
    ({ s with keys := keys, keyAllowed := false }.skip 1).emit t

def comma (s : Lexer) : Option Lexer :=
  s.dropKey.map fun s => ((s.allowKey true).skip 1).emit .comma

/-- The sign of an entry of a block sequence. -/
def entry (s : Lexer) : Option Lexer :=
  if !s.inFlow && !s.keyAllowed then none
  else
    (s.openAt s.mark.column s.tokens.size .seqStart).dropKey.map fun s =>
      ((s.allowKey true).skip 1).emit .entry

def keySign (s : Lexer) : Option Lexer :=
  if !s.inFlow && !s.keyAllowed then none
  else
    (s.openAt s.mark.column s.tokens.size .mapStart).dropKey.map fun s =>
      ((s.allowKey (!s.inFlow)).skip 1).emit .key

def valueSign (s : Lexer) : Option Lexer :=
  match s.pending with
  | some k =>
    let s := ((s.setPending none).insert k.count .key).openAt k.mark.column k.count .mapStart
    some (((s.allowKey false).skip 1).emit .value)
  | none =>
    if !s.inFlow && !s.keyAllowed then none
    else
      let s := s.openAt s.mark.column s.tokens.size .mapStart
      some (((s.allowKey (!s.inFlow)).skip 1).emit .value)

/-- The signs that can stand right behind the name of an anchor. -/
def signsBehindName : List Char := ['?', ':', ',', ']', '\x7d', '%', '@', '\x60']

/-- Reads the name of an anchor behind its sign. -/
def anchorName? (cs : List Char) : Option (String × List Char) :=
  let name := cs.takeWhile isNameChar
  let behind := cs.dropWhile isNameChar
  if name ≠ [] && (isApart behind || behind.head?.any signsBehindName.contains) then
    some (String.ofList name, behind)
  else none

def anchorSign (s : Lexer) : Option Lexer :=
  s.noteKey.bind fun s =>
    (anchorName? (s.rest.drop 1)).map fun (name, rest) =>
      ({ s with keyAllowed := false, names := s.names.define name }.goTo rest).emit
        (.anchor s.names.length)

/-- The sign of an alias. Its name has to be that of an anchor before it. -/
def aliasSign (s : Lexer) : Option Lexer :=
  s.noteKey.bind fun s =>
    (anchorName? (s.rest.drop 1)).bind fun (name, rest) =>
      (s.names.lookup name).map fun number =>
        ({ s with keyAllowed := false }.goTo rest).emit (.alias number)

def tagSign (s : Lexer) : Option Lexer :=
  s.noteKey.bind fun s =>
    (Tag.read s.inFlow s.preamble.allHandles s.rest).map fun (t, rest) =>
      ({ s with keyAllowed := false }.goTo rest).emit (.tag t)

def blockScalar (s : Lexer) (literal : Bool) : Option Lexer :=
  s.dropKey.bind fun s =>
    (Block.read literal s.indents.head? (s.mark.right 1) (s.rest.drop 1)).map
      fun (text, mark, rest) =>
        { s with mark, rest, keyAllowed := true }.emit
          (.scalar (String.ofList text) (if literal then .literal else .folded))

def quotedScalar (s : Lexer) (double : Bool) : Option Lexer :=
  s.noteKey.bind fun s =>
    (Quoted.read double (s.mark.right 1) (s.rest.drop 1)).map fun r =>
      { s with mark := r.mark, rest := r.rest, keyAllowed := false }.emit
        (.scalar (String.ofList r.text) (if double then .double else .single))

def plainScalar (s : Lexer) : Option Lexer :=
  s.noteKey.bind fun s =>
    (Plain.read s.inFlow ((s.indents.head?.map (· + 1)).getD 0) s.mark s.rest).map fun r =>
      { s with mark := r.mark, rest := r.rest, keyAllowed := r.atLineStart }.emit
        (.scalar (String.ofList r.text) .plain)

/-- The signs that no plain scalar starts with, whatever follows them. -/
def signs : List Char :=
  [',', '[', ']', '\x7b', '\x7d', '#', '&', '*', '!', '|', '>', '\'', '"', '%', '@', '\x60']

/-- Whether a plain scalar can start with a character. -/
def startsPlain (flow : Bool) (c : Char) (rest : List Char) : Bool :=
  if c = '-' then !(match rest with | d :: _ => isBlank d | [] => false)
  else if c = '?' || c = ':' then !flow && !isApart rest
  else !isBlank c && !signs.contains c

/-- The reader behind the token at this place. There is none where nothing can start. -/
def token (s : Lexer) (c : Char) (rest : List Char) : Option Lexer :=
  if s.mark.column = 0 && isFence '-' (c :: rest) then s.fence .documentStart
  else if s.mark.column = 0 && isFence '.' (c :: rest) then s.fence .documentEnd
  else if s.mark.column = 0 && c = '%' then s.directive
  else if c = '[' then s.openFlow .flowSeqStart
  else if c = '\x7b' then s.openFlow .flowMapStart
  else if c = ']' then s.closeFlow .flowSeqEnd
  else if c = '\x7d' then s.closeFlow .flowMapEnd
  else if c = ',' then s.comma
  else if c = '-' && isApart rest then s.entry
  else if c = '?' && (s.inFlow || isApart rest) then s.keySign
  else if c = ':' && (s.inFlow || isApart rest) then s.valueSign
  else if c = '&' then s.anchorSign
  else if c = '*' then s.aliasSign
  else if c = '!' then s.tagSign
  else if (c = '|' || c = '>') && !s.inFlow then s.blockScalar (c = '|')
  else if c = '\'' || c = '"' then s.quotedScalar (c = '"')
  else if startsPlain s.inFlow c rest then s.plainScalar
  else none

/-- The tokens of what is left. A reader that takes a token has fewer characters left, so that as
many steps as there are characters, and one for the end, are enough. -/
def run : Nat → Lexer → Option (List Token)
  | 0, _ => none
  | fuel + 1, s =>
    s.toNext.dropStale.bind fun s =>
      let s := s.close
      match s.rest with
      | [] => s.closeAll.dropKey.map (·.tokens.toList)
      | c :: rest => (s.token c rest).bind (run fuel)

end Lexer

/-- The tokens of a document; there are none if it has a character that cannot stand in it or
breaks a rule of the form. -/
def tokens? (text : String) : Option (List Token) :=
  let cs := text.toList
  if cs.all isAllowed then (Lexer.start (unifyBreaks cs)).run (cs.length + 1) else none

end LuaSnippet.Yaml
