import CollectionTree.Number.Binary64

/-!
# Reading numbers

Settings that come from the environment or the command line are plain text. Whole numbers are
decimal digits after an optional plus sign; floating-point numbers may have a sign, a point and an
exponent, and may be spelled `inf`, `infinity` or `nan` in any case. Nothing else may be there,
blanks included.
-/

namespace CollectionTree

/-- The value of a digit in bases up to sixteen. -/
def digitValue? (c : Char) : Option Nat :=
  if '0' ≤ c ∧ c ≤ '9' then some (c.toNat - '0'.toNat)
  else if 'a' ≤ c ∧ c ≤ 'f' then some (c.toNat - 'a'.toNat + 10)
  else if 'A' ≤ c ∧ c ≤ 'F' then some (c.toNat - 'A'.toNat + 10)
  else none

/-- Whether a character is a decimal digit. -/
def isDecimalDigit (c : Char) : Bool := '0' ≤ c && c ≤ '9'

/-- The number that digits of a base make after the digits that made `value`. -/
def readDigitsFrom? (base value : Nat) : List Char → Option Nat
  | [] => some value
  | c :: rest =>
    match digitValue? c with
    | some digit => if digit < base then readDigitsFrom? base (value * base + digit) rest else none
    | none => none

/-- The number that some digits of a base make; none without digits. -/
def readDigits? (base : Nat) : List Char → Option Nat
  | [] => none
  | cs => readDigitsFrom? base 0 cs

/-- A whole number up to `most`, after an optional plus sign. -/
def readUnsigned? (most : Nat) (cs : List Char) : Option Nat :=
  let digits := match cs with
    | '+' :: rest => rest
    | _ => cs
  (readDigits? 10 digits).filter (· ≤ most)

/-- A whole number with an optional sign of either kind. -/
def readSigned? : List Char → Option Int
  | '-' :: rest => (readDigits? 10 rest).map fun n ↦ -(n : Int)
  | '+' :: rest => (readDigits? 10 rest).map Int.ofNat
  | cs => (readDigits? 10 cs).map Int.ofNat

namespace Binary64

/-- The number made of whole digits, digits after the point, and what follows them. -/
def readParts? (negative : Bool) (whole fraction rest : List Char) : Option Binary64 := do
  let digits ← readDigits? 10 (whole ++ fraction)
  let exponent ← match rest with
    | [] => some 0
    | c :: rest => if c = 'e' ∨ c = 'E' then readSigned? rest else none
  return ofDecimal negative digits (exponent - fraction.length)

/-- A number without its sign. -/
def readMagnitude? (negative : Bool) (cs : List Char) : Option Binary64 :=
  let name := cs.map Char.toLower
  if name = "inf".toList ∨ name = "infinity".toList then some (infinity negative)
  else if name = "nan".toList then some (nan negative)
  else
    let whole := cs.takeWhile isDecimalDigit
    match cs.dropWhile isDecimalDigit with
    | '.' :: rest =>
      readParts? negative whole (rest.takeWhile isDecimalDigit) (rest.dropWhile isDecimalDigit)
    | rest => readParts? negative whole [] rest

/-- A number with an optional sign. -/
def read? : List Char → Option Binary64
  | '-' :: rest => readMagnitude? true rest
  | '+' :: rest => readMagnitude? false rest
  | cs => readMagnitude? false cs

end Binary64

end CollectionTree
