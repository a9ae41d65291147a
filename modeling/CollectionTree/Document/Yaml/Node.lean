import CollectionTree.Document.Yaml.Token

/-!
# Nodes of a YAML document

A document is a node that is a scalar, a sequence or a mapping. A node may be given a name, and an
alias stands for it once more.

Names are kept as numbers: a name that is given has as its number how many different names were
given before it. An alias has the number that its name has where the alias stands.
-/

namespace CollectionTree.Yaml

/-- A node of a document. -/
inductive Node where
  /-- A text, how it is written, and its tag. -/
  | scalar (style : Style) (tag : Option Bytes) (text : List Char)
  /-- Nodes in order. -/
  | sequence (items : List Node)
  /-- Pairs of a key and a value, in order. -/
  | mapping (entries : List (Node × Node))
  /-- The node that has a number, once more. -/
  | alias (number : Nat)

namespace Node

/-- A node of which nothing is written. -/
def empty : Node := scalar .plain none []

/-- What is left to read of a document, the names given so far with the numbers of their nodes, and
the nodes that have a number, in the order in which they began. -/
structure Reading where
  tokens : List Token
  numbers : List (List Char × Nat) := []
  numbered : List (Nat × Node) := []

/-- A step of reading that may fail. -/
abbrev Read (α : Type) := StateT Reading Option α

/-- The next token, left where it is. -/
def peek : Read (Option Token) := do return (← get).tokens.head?

/-- Go beyond the next token. -/
def advance : Read Unit := modify fun r ↦ { r with tokens := r.tokens.drop 1 }

/-- Whether the next token is among some. -/
def nextIn (tokens : List Token) : Read Bool := do
  return (← peek).any tokens.contains

/-- Go beyond the next token if it is this one, and say whether it was. -/
def accept (token : Token) : Read Bool := do
  if (← peek) == some token then
    advance
    return true
  else return false

/-- Go beyond the next token, which must be this one. -/
def expect (token : Token) : Read Unit := do
  if !(← accept token) then failure

/-- Give a name to a node that is not read yet; the answer is the node's place among those that have
a number. -/
def openName (name : List Char) : Read Nat := do
  let r ← get
  let number := r.numbers.length
  set { r with
    numbers := (name, number) :: r.numbers.filter (·.1 != name)
    numbered := r.numbered ++ [(number, empty)] }
  return r.numbered.length

/-- Put a node that was read into its place. -/
def closeName (place : Nat) (node : Node) : Read Unit :=
  modify fun r ↦ { r with numbered := r.numbered.modify place fun (number, _) ↦ (number, node) }

/-- The node that a name stands for. -/
def lookup (name : List Char) : Read Node := do
  match (← get).numbers.find? (·.1 == name) with
  | some (_, number) => return .alias number
  | none => failure

/-- The tag of a kind of scalar that every document knows. -/
def coreTag (kind : String) : Bytes :=
  ("tag:yaml.org,2002:" ++ kind).toList.map fun c ↦ c.toNat.toUInt8

/-- What the handles of tags stand for unless a document says otherwise. -/
def standardHandles : List (List Char × Bytes) :=
  [("!".toList, Scanner.bareTag), ("!!".toList, coreTag "")]

/-- The name and the tag before a node, in either order. -/
def readProperties (handles : List (List Char × Bytes)) :
    Read (Option (List Char) × Option Bytes) := do
  let tagOf (handle : Option (List Char)) (rest : Bytes) : Read Bytes :=
    match handle with
    | none => return rest
    | some handle =>
      match handles.find? (·.1 == handle) with
      | some (_, meaning) => return meaning ++ rest
      | none => failure
  match ← peek with
  | some (.anchor name) =>
    advance
    match ← peek with
    | some (.tag handle rest) =>
      advance
      return (some name, some (← tagOf handle rest))
    | _ => return (some name, none)
  | some (.tag handle rest) =>
    advance
    let tag ← tagOf handle rest
    match ← peek with
    | some (.anchor name) =>
      advance
      return (some name, some tag)
    | _ => return (none, some tag)
  | _ => return (none, none)

mutual

/-- A node. Only a node that is `indented` may be an indented collection; only one that is
`hanging`, as a part of an indented mapping, may be a sequence whose dashes are not indented
further. -/
def readNode (handles : List (List Char × Bytes)) :
    (fuel : Nat) → (indented hanging : Bool) → Read Node
  | 0, _, _ => failure
  | fuel + 1, indented, hanging => do
    match ← peek with
    | some (.alias name) =>
      advance
      lookup name
    | _ =>
      let (name, tag) ← readProperties handles
      match name with
      | none => readContent handles fuel indented hanging tag false
      | some name =>
        let place ← openName name
        let node ← readContent handles fuel indented hanging tag true
        closeName place node
        return node

/-- A node after its name and tag. A node that has one of these may have no content. -/
def readContent (handles : List (List Char × Bytes)) :
    (fuel : Nat) → (indented hanging : Bool) → (tag : Option Bytes) → (isNamed : Bool) → Read Node
  | 0, _, _, _, _ => failure
  | fuel + 1, indented, hanging, tag, isNamed => do
    match ← peek with
    | some (.scalar style text) =>
      advance
      return scalar style tag text
    | some .bracketOpen =>
      advance
      return sequence (← readBracketed handles fuel true)
    | some .braceOpen =>
      advance
      return mapping (← readBraced handles fuel true)
    | next =>
      if hanging && next == some .dash then return sequence (← readHanging handles fuel)
      else if indented && next == some .sequenceStart then
        advance
        return sequence (← readItems handles fuel)
      else if indented && next == some .mappingStart then
        advance
        return mapping (← readEntries handles fuel)
      else if isNamed || tag.isSome then return scalar .plain tag []
      else failure

/-- A node, or an empty one if one of some tokens comes next. -/
def readUnless (handles : List (List Char × Bytes)) :
    (fuel : Nat) → (inBlock : Bool) → (hanging : Bool) → List Token → Read Node
  | 0, _, _, _ => failure
  | fuel + 1, inBlock, hanging, tokens => do
    if ← nextIn tokens then return empty
    else readNode handles fuel inBlock hanging

/-- The items of an indented sequence. -/
def readItems (handles : List (List Char × Bytes)) : (fuel : Nat) → Read (List Node)
  | 0 => failure
  | fuel + 1 => do
    if ← accept .dash then
      let item ← readUnless handles fuel true false [.dash, .blockEnd]
      return item :: (← readItems handles fuel)
    else
      expect .blockEnd
      return []

/-- The items of a sequence that is not indented further than the mapping around it. -/
def readHanging (handles : List (List Char × Bytes)) : (fuel : Nat) → Read (List Node)
  | 0 => failure
  | fuel + 1 => do
    if ← accept .dash then
      let item ← readUnless handles fuel true false [.dash, .key, .value, .blockEnd]
      return item :: (← readHanging handles fuel)
    else return []

/-- The value after a key, if there is one. -/
def readValue (handles : List (List Char × Bytes)) :
    (fuel : Nat) → (inBlock : Bool) → List Token → Read Node
  | 0, _, _ => failure
  | fuel + 1, inBlock, tokens => do
    if ← accept .value then readUnless handles fuel inBlock inBlock tokens
    else return empty

/-- The entries of an indented mapping. -/
def readEntries (handles : List (List Char × Bytes)) : (fuel : Nat) → Read (List (Node × Node))
  | 0 => failure
  | fuel + 1 => do
    if ← accept .key then
      let key ← readUnless handles fuel true true [.key, .value, .blockEnd]
      let value ← readValue handles fuel true [.key, .value, .blockEnd]
      return (key, value) :: (← readEntries handles fuel)
    else
      expect .blockEnd
      return []

/-- The key of a pair between brackets. Where there is no key, the token that says so is passed
over. -/
def readPairKey (handles : List (List Char × Bytes)) : (fuel : Nat) → Read Node
  | 0 => failure
  | fuel + 1 => do
    if ← nextIn [.value, .comma, .bracketClose] then
      advance
      return empty
    else readNode handles fuel false false

/-- The items between brackets. An item may be a pair, which is a mapping of its own. -/
def readBracketed (handles : List (List Char × Bytes)) :
    (fuel : Nat) → (first : Bool) → Read (List Node)
  | 0, _ => failure
  | fuel + 1, first => do
    if ← accept .bracketClose then return []
    if !first then expect .comma
    if ← accept .bracketClose then return []
    if ← accept .key then
      let key ← readPairKey handles fuel
      let value ← readValue handles fuel false [.comma, .bracketClose]
      return mapping [(key, value)] :: (← readBracketed handles fuel false)
    else
      let item ← readNode handles fuel false false
      return item :: (← readBracketed handles fuel false)

/-- The entries between braces. -/
def readBraced (handles : List (List Char × Bytes)) :
    (fuel : Nat) → (first : Bool) → Read (List (Node × Node))
  | 0, _ => failure
  | fuel + 1, first => do
    if ← accept .braceClose then return []
    if !first then expect .comma
    if ← accept .braceClose then return []
    if ← accept .key then
      let key ← readUnless handles fuel false false [.value, .comma, .braceClose]
      let value ← readValue handles fuel false [.comma, .braceClose]
      return (key, value) :: (← readBraced handles fuel false)
    else
      let key ← readNode handles fuel false false
      return (key, empty) :: (← readBraced handles fuel false)

end

/-- The handles that the lines before a document define, and the tokens after those lines. The
version may be stated once, and each handle defined once. -/
def readDirectives? (versioned : Bool) (handles : List (List Char × Bytes)) :
    List Token → Option (List (List Char × Bytes) × List Token)
  | .version major minor :: rest =>
    if versioned || major != 1 || !(minor == 1 || minor == 2) then none
    else readDirectives? true handles rest
  | .handle name meaning :: rest =>
    if handles.any (·.1 == name) then none
    else readDirectives? versioned ((name, meaning) :: handles) rest
  | rest => some (handles, rest)

/-- Whether a document is over before a token. -/
def endsDocument : Option Token → Bool
  | none => true
  | some (.version _ _) => true
  | some (.handle _ _) => true
  | some .documentStart => true
  | some .documentEnd => true
  | some _ => false

end Node

end CollectionTree.Yaml
