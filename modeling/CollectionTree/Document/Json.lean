import CollectionTree.Document.Basic
import CollectionTree.Number.Reading

/-!
# JSON documents

A text is one value between blanks, and nothing else. A number written without a point and without
an exponent is a whole number, except for a zero below zero. A string may name half of a surrogate
pair; such a string is read, and is no text.

As a record, an object gives its fields in order, and an array gives the fields that may be there in
their own order.
-/

namespace CollectionTree

/-- A JSON value. -/
inductive Json where
  /-- The literal `null`. -/
  | null
  /-- A truth value. -/
  | truth (b : Bool)
  /-- A number written without a point and without an exponent. -/
  | whole (n : Int)
  /-- Any other number: a sign, digits, and the power of ten that they count. -/
  | decimal (negative : Bool) (digits : Nat) (exponent : Int)
  /-- A string, if it is a text. -/
  | text (s : Option String)
  /-- An array. -/
  | array (items : List Json)
  /-- An object. -/
  | object (members : List (Option String × Json))
  deriving Inhabited

namespace Json

/-- Whether a character may stand between values. -/
def isBlank (c : Char) : Bool := c == ' ' || c == '\n' || c == '\t' || c == '\r'

/-- The number that four hexadecimal digits make. -/
def readUnit? (a b c d : Char) : Option Nat := readDigits? 16 [a, b, c, d]

/-- What a character stands for after a backslash. -/
def escaped? : Char → Option Char
  | '"' => some '"'
  | '\\' => some '\\'
  | '/' => some '/'
  | 'b' => some '\x08'
  | 'f' => some '\x0c'
  | 'n' => some '\n'
  | 'r' => some '\r'
  | 't' => some '\t'
  | _ => none

/-- The code points of a string up to its closing quote, and what comes after it. Halves of
surrogate pairs are left as they are. -/
def readUnits? : List Char → Option (List Nat × List Char)
  | [] => none
  | '"' :: rest => some ([], rest)
  | '\\' :: 'u' :: a :: b :: c :: d :: rest => do
    let unit ← readUnit? a b c d
    let (units, rest) ← readUnits? rest
    return (unit :: units, rest)
  | '\\' :: c :: rest => do
    let c ← escaped? c
    let (units, rest) ← readUnits? rest
    return (c.toNat :: units, rest)
  | c :: rest => do
    if c.toNat < 0x20 then failure
    let (units, rest) ← readUnits? rest
    return (c.toNat :: units, rest)

/-- Whether a code point is the first half of a surrogate pair. -/
def isHighHalf (unit : Nat) : Bool := 0xD800 ≤ unit && unit < 0xDC00

/-- Whether a code point is the second half of a surrogate pair. -/
def isLowHalf (unit : Nat) : Bool := 0xDC00 ≤ unit && unit < 0xE000

/-- The characters of code points, with surrogate pairs joined. There are none if a half stands
alone. -/
def joinHalves? : List Nat → Option (List Char)
  | [] => some []
  | [unit] => if isHighHalf unit || isLowHalf unit then none else some [Char.ofNat unit]
  | high :: low :: rest =>
    if isHighHalf high then
      if isLowHalf low then
        (joinHalves? rest).map
          (Char.ofNat (0x10000 + (high - 0xD800) * 0x400 + (low - 0xDC00)) :: ·)
      else none
    else if isLowHalf high then none
    else (joinHalves? (low :: rest)).map (Char.ofNat high :: ·)

/-- A string after its opening quote. -/
def readString? (cs : List Char) : Option (Option String × List Char) := do
  let (units, rest) ← readUnits? cs
  return ((joinHalves? units).map String.ofList, rest)

/-- The digits at the front, of which there is at least one. -/
def splitDigits? (cs : List Char) : Option (List Char × List Char) :=
  match cs.takeWhile isDecimalDigit with
  | [] => none
  | digits => some (digits, cs.dropWhile isDecimalDigit)

/-- Digits after a point, if there is a point. -/
def readFraction? : List Char → Option (Option (List Char) × List Char)
  | '.' :: rest => (splitDigits? rest).map fun (digits, rest) ↦ (some digits, rest)
  | rest => some (none, rest)

/-- The digits of an exponent after its sign. -/
def readPower? (sign : Int) (cs : List Char) : Option (Option Int × List Char) := do
  let (digits, rest) ← splitDigits? cs
  let power ← readDigits? 10 digits
  return (some (sign * power), rest)

/-- An exponent, if there is one. -/
def readExponent? : List Char → Option (Option Int × List Char)
  | c :: rest =>
    if c = 'e' ∨ c = 'E' then
      match rest with
      | '+' :: rest => readPower? 1 rest
      | '-' :: rest => readPower? (-1) rest
      | rest => readPower? 1 rest
    else some (none, c :: rest)
  | [] => some (none, [])

/-- A number after its sign. A zero in front is the only digit before the point. -/
def readNumber? (negative : Bool) (cs : List Char) : Option (Json × List Char) := do
  let (digits, rest) ← splitDigits? cs
  if digits.head? = some '0' ∧ digits.length > 1 then failure
  let (fraction, rest) ← readFraction? rest
  let (exponent, rest) ← readExponent? rest
  let size ← readDigits? 10 (digits ++ fraction.getD [])
  if fraction.isNone ∧ exponent.isNone ∧ ¬ (negative ∧ size = 0) then
    return (whole (if negative then -size else size), rest)
  else
    return (decimal negative size (exponent.getD 0 - (fraction.getD []).length), rest)

/-- What comes after some characters, if they are at the front. -/
def expect? (word : String) (cs : List Char) : Option (List Char) :=
  if word.toList.isPrefixOf cs then some (cs.drop word.length) else none

/-- The text without the blanks at its front. -/
def skipBlanks (cs : List Char) : List Char := cs.dropWhile isBlank

mutual

/-- A value at the front, after blanks, and what comes after it. -/
def readValue? : (fuel : Nat) → List Char → Option (Json × List Char)
  | 0, _ => none
  | fuel + 1, cs =>
    match skipBlanks cs with
    | 'n' :: rest => (expect? "ull" rest).map (null, ·)
    | 't' :: rest => (expect? "rue" rest).map (truth true, ·)
    | 'f' :: rest => (expect? "alse" rest).map (truth false, ·)
    | '"' :: rest => (readString? rest).map fun (s, rest) ↦ (text s, rest)
    | '-' :: rest => readNumber? true rest
    | '[' :: rest =>
      match skipBlanks rest with
      | ']' :: rest => some (array [], rest)
      | rest => (readItems? fuel rest).map fun (items, rest) ↦ (array items, rest)
    | '{' :: rest =>
      match skipBlanks rest with
      | '}' :: rest => some (object [], rest)
      | rest => (readMembers? fuel rest).map fun (members, rest) ↦ (object members, rest)
    | rest => readNumber? false rest

/-- The items of an array up to its closing bracket. -/
def readItems? : (fuel : Nat) → List Char → Option (List Json × List Char)
  | 0, _ => none
  | fuel + 1, cs => do
    let (item, rest) ← readValue? fuel cs
    match skipBlanks rest with
    | ',' :: rest => do
      let (items, rest) ← readItems? fuel rest
      return (item :: items, rest)
    | ']' :: rest => return ([item], rest)
    | _ => none

/-- The members of an object up to its closing brace. -/
def readMembers? : (fuel : Nat) → List Char → Option (List (Option String × Json) × List Char)
  | 0, _ => none
  | fuel + 1, cs => do
    let rest ← expect? "\"" (skipBlanks cs)
    let (name, rest) ← readString? rest
    let rest ← expect? ":" (skipBlanks rest)
    let (value, rest) ← readValue? fuel rest
    match skipBlanks rest with
    | ',' :: rest => do
      let (members, rest) ← readMembers? fuel rest
      return ((name, value) :: members, rest)
    | '}' :: rest => return ([(name, value)], rest)
    | _ => none

end

/-- The value that a text is. -/
def parse? (source : String) : Option Json := do
  let cs := source.toList
  let (value, rest) ← readValue? (2 * cs.length + 2) cs
  if (skipBlanks rest).isEmpty then return value else none

/-- The members of an object whose names are all texts. -/
def namedMembers? (members : List (Option String × Json)) : Option (List (String × Json)) :=
  members.mapM fun (name, value) ↦ name.map (·, value)

instance : Document Json where
  whole?
    | whole n => if 0 ≤ n then some n.toNat else none
    | _ => none
  number?
    | whole n => (Binary64.ofDecimal (n < 0) n.natAbs 0).finite?
    | decimal negative digits exponent => (Binary64.ofDecimal negative digits exponent).finite?
    | _ => none
  truth?
    | truth b => some b
    | _ => none
  states?
    | null => some false
    | _ => some true
  fields? names
    | array items => if items.length ≤ names.length then some (names.zip items) else none
    | object members => namedMembers? members
    | _ => none

end Json

end CollectionTree
