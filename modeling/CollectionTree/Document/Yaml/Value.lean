import CollectionTree.Document.Basic
import CollectionTree.Document.Yaml.Node

/-!
# Values in a YAML document

A text holds one document. A text without one has an empty plain scalar. A value is a node together
with the nodes that the aliases in its document stand for: each for the node that was given its
number last, in the whole document, so that a node may stand for one that comes after it or has it
as a part.

Only plain scalars state numbers and truth values, and blocks that are tagged as such. A plain
scalar that is tagged as nothing has to say that there is nothing, where it may.
-/

namespace CollectionTree.Yaml

/-- A node, and the nodes of its document that have a number, in the order in which they began. -/
structure Value where
  node : Node
  numbered : List (Nat × Node) := []

namespace Value

/-- The node, or the one that it stands for if it is an alias. -/
def target (v : Value) : Node :=
  match v.node with
  | .alias number => ((v.numbered.reverse.find? (·.1 == number)).map Prod.snd).getD .empty
  | node => node

/-- Whether nothing but marks of a document's end is left. -/
def isOver (tokens : List Token) : Bool := (tokens.dropWhile (· == .documentEnd)).isEmpty

/-- The content of a document that some tokens make, after which nothing but marks of its end may
come. -/
def ofContent? (handles : List (List Char × Bytes)) (tokens : List Token) : Option Value := do
  let fuel := 4 * tokens.length + 4
  let (node, last) ←
    (Node.readNode (handles ++ Node.standardHandles) fuel true false).run { tokens }
  if isOver last.tokens then return { node, numbered := last.numbered } else none

/-- The document that some tokens make. -/
def ofTokens? (tokens : List Token) : Option Value := do
  if tokens.isEmpty then return { node := .empty }
  let (handles, content) ← Node.readDirectives? false [] tokens
  match content with
  | .documentStart :: rest =>
    if Node.endsDocument rest.head? then
      if isOver rest then return { node := .empty } else none
    else ofContent? handles rest
  | _ => if content.length < tokens.length then none else ofContent? [] tokens

/-- The document that a text holds. -/
def parse? (source : String) : Option Value := scan? source >>= ofTokens?

end Value

/-- The text of a scalar that may state something of a kind. -/
def Node.stating? (kind : String) : Node → Option (List Char)
  | scalar .plain _ text => some text
  | scalar .literal (some tag) text => if tag = coreTag kind then some text else none
  | _ => none

/-- Whether a text says that there is nothing. -/
def saysNothing (text : List Char) : Bool :=
  ["null", "Null", "NULL", "~"].contains (String.ofList text)

/-- The text without a plus sign at its front. -/
def withoutPlus : List Char → List Char
  | '+' :: rest => rest
  | text => text

/-- The whole number that a text states: decimal without needless zeros, or hexadecimal, octal or
binary after a mark. -/
def wholeOf? (text : List Char) : Option Nat :=
  match withoutPlus text with
  | '0' :: 'x' :: digits => readDigits? 16 digits
  | '0' :: 'o' :: digits => readDigits? 8 digits
  | '0' :: 'b' :: digits => readDigits? 2 digits
  | '0' :: _ :: _ => none
  | digits => readDigits? 10 digits

/-- The number that a text states: a decimal one, or a name after a point. -/
def numberOf? (text : List Char) : Option Binary64 :=
  let size := withoutPlus text
  if [".inf", ".Inf", ".INF"].contains (String.ofList size) then some (.infinity false)
  else if ["-.inf", "-.Inf", "-.INF"].contains (String.ofList text) then some (.infinity true)
  else if [".nan", ".NaN", ".NAN"].contains (String.ofList text) then some (.nan false)
  else if size.head? = some '+' ∨ size.length < text.length ∧ size.head? = some '-' then none
  else Binary64.read? size >>= Binary64.finite?

/-- The truth value that a text states. -/
def truthOf? (text : List Char) : Option Bool :=
  if ["true", "True", "TRUE"].contains (String.ofList text) then some true
  else if ["false", "False", "FALSE"].contains (String.ofList text) then some false
  else none

/-- Whether a node states something; none for one that is tagged as nothing and states something. -/
def Node.states? : Node → Option Bool
  | scalar .plain none text => some !(text.isEmpty || saysNothing text)
  | scalar .plain (some tag) text =>
    if tag = coreTag "null" then if saysNothing text then some false else none else some true
  | _ => some true

namespace Value

/-- The text of a key. -/
def keyText? (key : Value) : Option String :=
  match key.target with
  | .scalar _ _ text => some (String.ofList text)
  | _ => none

instance : Document Value where
  whole? v := v.target.stating? "int" >>= wholeOf?
  number? v := v.target.stating? "float" >>= numberOf?
  truth? v := v.target.stating? "bool" >>= truthOf?
  states? v := v.target.states?
  fields? _ v :=
    match v.target with
    | .mapping entries => entries.mapM fun (key, value) ↦
      (keyText? { v with node := key }).map (·, { v with node := value })
    | .scalar .plain _ [] => some []
    | _ => none

end Value

end CollectionTree.Yaml
