import LuaSnippet.Yaml.Token

/-!
# Documents as trees

What a document holds: scalars, sequences and mappings, and aliases in place of nodes that have a
number. The tree is read off the tokens from the left. Where a node may be left out, an empty scalar
stands for it.
-/

namespace LuaSnippet.Yaml

/-- What is said of a node before it: the number that aliases know it by, and its tag. -/
structure Properties where
  anchor : Option Nat
  tag : Option Tag
deriving DecidableEq, Repr

namespace Properties

def none : Properties := ⟨.none, .none⟩

/-- What is said of a scalar. The tag for the usual kind says nothing. -/
def ofScalar (p : Properties) : Properties :=
  if p.tag = some Tag.usual then { p with tag := .none } else p

/-- Reads what is said of a node, each at most once and in any order. -/
def read : List Token → Properties × List Token
  | .anchor n :: .tag t :: rest => (⟨some n, some t⟩, rest)
  | .tag t :: .anchor n :: rest => (⟨some n, some t⟩, rest)
  | .anchor n :: rest => (⟨some n, .none⟩, rest)
  | .tag t :: rest => (⟨.none, some t⟩, rest)
  | ts => (none, ts)

end Properties

inductive Node where
  | scalar (properties : Properties) (text : String) (style : Style)
  | seq (properties : Properties) (items : List Node)
  | map (properties : Properties) (pairs : List (Node × Node))
  /-- Whatever node has a number. -/
  | alias (number : Nat)

namespace Node

def empty : Node := .scalar .none "" .plain

/-- A part that was read, and the tokens behind it. -/
abbrev Reading (α : Type) := Option (α × List Token)

/-- Whether some tokens go on with one of certain tokens, or end. -/
def stopsAt (stops : List Token) : List Token → Bool
  | [] => true
  | t :: _ => stops.contains t

def expect (t : Token) : List Token → Option (List Token)
  | [] => none
  | t' :: rest => if t' = t then some rest else none

mutual

/-- Reads a node. Block collections can start only where `block` holds, and a sequence without a
bracket of its own only where `bare` holds. The node itself may be missing behind what is said of
it. The number bounds how often readings call each other. -/
def read : Nat → Bool → Bool → List Token → Reading Node
  | 0, _, _, _ => none
  | fuel + 1, block, bare, ts =>
    match Properties.read ts with
    | (p, .scalar text style :: rest) => some (.scalar p.ofScalar text style, rest)
    | (p, .flowSeqStart :: rest) => (flowItems fuel true rest).map fun r => (.seq p r.1, r.2)
    | (p, .flowMapStart :: rest) => (flowPairs fuel true rest).map fun r => (.map p r.1, r.2)
    | (p, rest) =>
      match block, bare, rest with
      | true, _, .seqStart :: rest => (items fuel rest).map fun r => (.seq p r.1, r.2)
      | true, _, .mapStart :: rest => (pairs fuel rest).map fun r => (.map p r.1, r.2)
      | _, true, .entry :: _ => (bareItems fuel rest).map fun r => (.seq p r.1, r.2)
      | _, _, rest =>
        if p ≠ .none then some (.scalar p "" .plain, rest)
        else match rest with
          | .alias n :: rest => some (.alias n, rest)
          | _ => none

/-- Reads a node that may be left out before certain tokens. -/
def readOr : Nat → Bool → Bool → List Token → List Token → Reading Node
  | 0, _, _, _, _ => none
  | fuel + 1, block, bare, stops, ts =>
    if stopsAt stops ts then some (empty, ts) else read fuel block bare ts

/-- Reads the entries of a block sequence. -/
def items : Nat → List Token → Reading (List Node)
  | 0, _ => none
  | fuel + 1, ts =>
    match ts with
    | .blockEnd :: rest => some ([], rest)
    | .entry :: rest =>
      (readOr fuel true false [.entry, .blockEnd] rest).bind fun (n, rest) =>
        (items fuel rest).map fun r => (n :: r.1, r.2)
    | _ => none

/-- Reads the entries of a sequence that ends with the last of them. -/
def bareItems : Nat → List Token → Reading (List Node)
  | 0, _ => none
  | fuel + 1, ts =>
    match ts with
    | .entry :: rest =>
      (readOr fuel true false [.entry, .key, .value, .blockEnd] rest).bind fun (n, rest) =>
        (bareItems fuel rest).map fun r => (n :: r.1, r.2)
    | _ => some ([], ts)

/-- Reads the value of a pair, before certain tokens. -/
def valueOf : Nat → Bool → List Token → List Token → Reading Node
  | 0, _, _, _ => none
  | fuel + 1, block, stops, ts =>
    match ts with
    | .value :: rest => readOr fuel block block stops rest
    | _ => some (empty, ts)

def pairs : Nat → List Token → Reading (List (Node × Node))
  | 0, _ => none
  | fuel + 1, ts =>
    match ts with
    | .blockEnd :: rest => some ([], rest)
    | .key :: rest =>
      (readOr fuel true true [.key, .value, .blockEnd] rest).bind fun (k, rest) =>
        (valueOf fuel true [.key, .value, .blockEnd] rest).bind fun (v, rest) =>
          (pairs fuel rest).map fun r => ((k, v) :: r.1, r.2)
    | _ => none

/-- Reads the key of an item between brackets. Where a key is left out, the sign that stands in its
place is passed over with it. -/
def flowKey : Nat → List Token → Reading Node
  | 0, _ => none
  | fuel + 1, ts =>
    if stopsAt [.value, .comma, .flowSeqEnd] ts then some (empty, ts.tail)
    else read fuel false false ts

/-- Reads an item between brackets; a pair is a mapping of its own. -/
def flowItem : Nat → List Token → Reading Node
  | 0, _ => none
  | fuel + 1, ts =>
    match ts with
    | .key :: rest =>
      (flowKey fuel rest).bind fun (k, rest) =>
        (valueOf fuel false [.comma, .flowSeqEnd] rest).map fun r => (.map .none [(k, r.1)], r.2)
    | _ => read fuel false false ts

/-- Reads the items between brackets; all but the first follow a comma. -/
def flowItems : Nat → Bool → List Token → Reading (List Node)
  | 0, _, _ => none
  | fuel + 1, first, ts =>
    match ts with
    | .flowSeqEnd :: rest => some ([], rest)
    | _ =>
      (if first then some ts else expect .comma ts).bind fun ts =>
        match ts with
        | .flowSeqEnd :: rest => some ([], rest)
        | _ => (flowItem fuel ts).bind fun (n, rest) =>
          (flowItems fuel false rest).map fun r => (n :: r.1, r.2)

/-- Reads a pair between braces; a node alone is a key. -/
def flowPair : Nat → List Token → Reading (Node × Node)
  | 0, _ => none
  | fuel + 1, ts =>
    match ts with
    | .key :: rest =>
      (readOr fuel false false [.value, .comma, .flowMapEnd] rest).bind fun (k, rest) =>
        (valueOf fuel false [.comma, .flowMapEnd] rest).map fun r => ((k, r.1), r.2)
    | _ => (read fuel false false ts).map fun r => ((r.1, empty), r.2)

/-- Reads the pairs between braces; all but the first follow a comma. -/
def flowPairs : Nat → Bool → List Token → Reading (List (Node × Node))
  | 0, _, _ => none
  | fuel + 1, first, ts =>
    match ts with
    | .flowMapEnd :: rest => some ([], rest)
    | _ =>
      (if first then some ts else expect .comma ts).bind fun ts =>
        match ts with
        | .flowMapEnd :: rest => some ([], rest)
        | _ => (flowPair fuel ts).bind fun (n, rest) =>
          (flowPairs fuel false rest).map fun r => (n :: r.1, r.2)

end

/-- How often readings call each other at most, from one token to the next. -/
def depthPerToken : Nat := 4

def root (ts : List Token) : Reading Node :=
  read (depthPerToken * (ts.length + 1)) true false ts

/-! ### Anchors -/

mutual

/-- The nodes with a number within a node, in their order. -/
def anchored : Node → List (Nat × Node)
  | .scalar p text style => (p.anchor.map (·, .scalar p text style)).toList
  | .seq p items => (p.anchor.map (·, .seq p items)).toList ++ anchoredItems items
  | .map p pairs => (p.anchor.map (·, .map p pairs)).toList ++ anchoredPairs pairs
  | .alias _ => []

/-- The nodes with a number within some nodes. -/
def anchoredItems : List Node → List (Nat × Node)
  | [] => []
  | n :: ns => anchored n ++ anchoredItems ns

/-- The nodes with a number within some pairs. -/
def anchoredPairs : List (Node × Node) → List (Nat × Node)
  | [] => []
  | (k, v) :: ps => anchored k ++ anchored v ++ anchoredPairs ps

end

/-! ### Size -/

mutual

/-- How many parts a node has, where a collection counts at both its ends. -/
def size : Node → Nat
  | .scalar _ _ _ => 1
  | .seq _ items => 2 + sizeItems items
  | .map _ pairs => 2 + sizePairs pairs
  | .alias _ => 1

/-- How many parts some nodes have. -/
def sizeItems : List Node → Nat
  | [] => 0
  | n :: ns => size n + sizeItems ns

/-- How many parts some pairs have. -/
def sizePairs : List (Node × Node) → Nat
  | [] => 0
  | (k, v) :: ps => size k + size v + sizePairs ps

end

end Node

/-- A text with one document in it. A text without tokens has nothing in it; there is no reading of
a text with a fault, or with a second document. Behind directives a document has to be opened. -/
def read? (text : String) : Option (Option Node) :=
  (tokens? text).bind fun ts =>
    match ts with
    | [] => some none
    | .directive :: rest =>
      match rest.dropWhile (· = .directive) with
      | .documentStart :: rest => opened rest
      | _ => none
    | .documentStart :: rest => opened rest
    | _ => (Node.root ts).bind finish
where
  /-- The node of a document behind its opening. -/
  opened (ts : List Token) : Option (Option Node) :=
    if Node.stopsAt [.documentStart, .documentEnd] ts then finish (.empty, ts)
    else (Node.root ts).bind finish
  /-- The node of a document behind which nothing but ends of documents stands. -/
  finish (r : Node × List Token) : Option (Option Node) :=
    if r.2.all (· = .documentEnd) then some (some r.1) else none

end LuaSnippet.Yaml
