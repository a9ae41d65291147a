import CollectionTree.Document.Json
import CollectionTree.Number.Shortest

/-!
# JSON as text

A value is written over several lines, with two blanks more for each level of nesting; an array or
object without content is written on one line. Numbers are written out without an exponent.
-/

namespace CollectionTree.Json

/-- The value that stands for a number; one that is not finite has none. -/
def ofNumber (x : Binary64) : Json :=
  if !x.isFinite then null
  else if x.magnitude = 0 then decimal x.isNegative 0 0
  else decimal x.isNegative x.shortest.digits x.shortest.exponent

/-- An object with these members. -/
def record (members : List (String × Json)) : Json :=
  object (members.map fun (name, value) ↦ (some name, value))

/-- How a character is written in a string. -/
def textChar (c : Char) : List Char :=
  if c = '"' ∨ c = '\\' then ['\\', c]
  else if c = '\n' then ['\\', 'n']
  else if c = '\r' then ['\\', 'r']
  else if c = '\t' then ['\\', 't']
  else if c = '\x08' then ['\\', 'b']
  else if c = '\x0c' then ['\\', 'f']
  else if c.toNat < 0x20 then
    ['\\', 'u', '0', '0', Nat.digitChar (c.toNat / 16), Nat.digitChar (c.toNat % 16)]
  else [c]

/-- A string with its quotes. -/
def textOf (s : String) : String := String.ofList ('"' :: s.toList.flatMap textChar ++ ['"'])

/-- A number with a point. -/
def decimalText (negative : Bool) (digits : Nat) (exponent : Int) : String :=
  let size := if digits = 0 then "0" else Decimal.positional ⟨digits, exponent⟩
  let sign := if negative then "-" else ""
  sign ++ size ++ if size.contains '.' then "" else ".0"

/-- A new line at some level of nesting. -/
def lineAt (level : Nat) : String := "\n".pushn ' ' (2 * level)

/-- Lines between brackets, which stand at some level of nesting. -/
def enclose (level : Nat) (opening closing : Char) (lines : List String) : String :=
  if lines.isEmpty then String.ofList [opening, closing]
  else
    let line := lineAt (level + 1)
    String.ofList [opening] ++ line ++ String.intercalate ("," ++ line) lines ++ lineAt level ++
      String.ofList [closing]

mutual

/-- A value at some level of nesting. -/
def textAt (level : Nat) : Json → String
  | null => "null"
  | truth b => if b then "true" else "false"
  | whole n => toString n
  | decimal negative digits exponent => decimalText negative digits exponent
  | text s => textOf (s.getD "")
  | array items => enclose level '[' ']' (itemTexts (level + 1) items)
  | object members => enclose level '{' '}' (memberTexts (level + 1) members)

/-- Values at some level of nesting. -/
def itemTexts (level : Nat) : List Json → List String
  | [] => []
  | item :: rest => textAt level item :: itemTexts level rest

/-- Members at some level of nesting. -/
def memberTexts (level : Nat) : List (Option String × Json) → List String
  | [] => []
  | (name, value) :: rest =>
    (textOf (name.getD "") ++ ": " ++ textAt level value) :: memberTexts level rest

end

/-- The text of a value. -/
def pretty (j : Json) : String := textAt 0 j

end CollectionTree.Json
