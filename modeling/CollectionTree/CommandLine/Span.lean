import CollectionTree.Duration
import CollectionTree.Number.Reading

/-!
# Spans of time as they are typed

A span is typed as numbers with units, such as `1h 30m`, which are added up. A number may have a
decimal fraction that is a whole number of nanoseconds, or of seconds where the unit is an hour or
more; a number of nanoseconds has none. Blanks may stand anywhere but inside a unit. Whatever does
not fit in a machine word is refused.
-/

namespace CollectionTree

/-- The codes of the blanks that may stand in a span. -/
def spanBlankCodes : List Nat :=
  [0x85, 0xa0, 0x1680, 0x2028, 0x2029, 0x202f, 0x205f, 0x3000]

/-- Whether a character is a blank. -/
def isSpanBlank (c : Char) : Bool :=
  '\t' ≤ c && c ≤ '\r' || c == ' ' || spanBlankCodes.contains c.toNat ||
    0x2000 ≤ c.toNat && c.toNat ≤ 0x200a

/-- Whether a character may be in a unit. -/
def isUnitLetter (c : Char) : Bool := c.isAlpha || c == 'µ'

/-- A unit of time. Its size is in nanoseconds if whole numbers of it are counted in them, else in
seconds; fractions of it may be counted in nanoseconds in either case. -/
structure SpanUnit where
  counted : Bool
  fine : Bool
  size : Nat
  deriving DecidableEq, Repr

/-- The unit with a name. -/
def SpanUnit.ofName? (name : String) : Option SpanUnit :=
  if ["nanos", "nsec", "ns"].contains name then some ⟨true, true, 1⟩
  else if ["usec", "us", "µs"].contains name then some ⟨true, true, 1000⟩
  else if ["millis", "msec", "ms"].contains name then some ⟨true, true, 1000000⟩
  else if ["seconds", "second", "secs", "sec", "s"].contains name then some ⟨false, true, 1⟩
  else if ["minutes", "minute", "min", "mins", "m"].contains name then some ⟨false, true, 60⟩
  else if ["hours", "hour", "hr", "hrs", "h"].contains name then some ⟨false, false, 3600⟩
  else if ["days", "day", "d"].contains name then some ⟨false, false, 86400⟩
  else if ["weeks", "week", "wk", "wks", "w"].contains name then some ⟨false, false, 604800⟩
  else if ["months", "month", "M"].contains name then some ⟨false, false, 2630016⟩
  else if ["years", "year", "yr", "yrs", "y"].contains name then some ⟨false, false, 31557600⟩
  else none

/-- A number, if a machine word holds it. -/
def inWord? (n : Nat) : Option Nat := if n < UInt64.size then some n else none

/-- A span after another one, if machine words hold the seconds and, before they are carried over
into seconds, the nanoseconds. -/
def Duration.addWithin? (total : Duration) (secs nanos : Nat) : Option Duration := do
  let sum := Duration.make (total.secs + secs) (← inWord? (total.nanos + nanos))
  let _ ← inWord? sum.secs
  return sum

/-- A typed number: its whole part, the digits of its fraction as one number, and how many there
are. -/
structure TypedNumber where
  whole : Nat
  fraction : Nat := 0
  places : Nat := 0

/-- A quotient, if nothing is left over. -/
def exactly? (n divisor : Nat) : Option Nat := if n % divisor = 0 then some (n / divisor) else none

/-- How much of a unit a fraction is: nanoseconds where the unit is fine, or else seconds. There is
no fraction of a nanosecond. -/
def TypedNumber.fractionOf? (n : TypedNumber) (unit : SpanUnit) : Option Nat := do
  if unit.counted && unit.size = 1 then failure
  let grain := if unit.fine && !unit.counted then nanosPerSecond else 1
  exactly? (← inWord? (n.fraction * (unit.size * grain))) (Nat.pow 10 n.places)

/-- Add a number of units to a span. -/
def TypedNumber.addTo? (n : TypedNumber) (unit : SpanUnit) (total : Duration) :
    Option Duration := do
  let whole ← inWord? (n.whole * unit.size)
  let total ← if unit.counted then total.addWithin? 0 whole else total.addWithin? whole 0
  if n.places = 0 then return total
  let fraction ← n.fractionOf? unit
  if unit.fine then total.addWithin? 0 fraction else total.addWithin? fraction 0

/-- Digits and blanks in front, taken into a number so far, and how many digits there were. -/
def typedDigits? : (soFar count : Nat) → List Char → Option (Nat × Nat × List Char)
  | soFar, count, c :: rest =>
    if isDecimalDigit c then do
      let next ← inWord? (soFar * 10 + (c.toNat - '0'.toNat))
      typedDigits? next (count + 1) rest
    else if isSpanBlank c then typedDigits? soFar count rest
    else some (soFar, count, c :: rest)
  | soFar, count, [] => some (soFar, count, [])

/-- A number at the front, and what comes after it. -/
def typedNumber? (cs : List Char) : Option (TypedNumber × List Char) := do
  let cs := cs.dropWhile isSpanBlank
  if !cs.head?.any isDecimalDigit then failure
  let (whole, _, rest) ← typedDigits? 0 0 cs
  match rest with
  | '.' :: rest =>
    let (fraction, places, rest) ← typedDigits? 0 0 rest
    let _ ← inWord? (Nat.pow 10 places)
    if places = 0 then failure
    return ({ whole, fraction, places }, rest)
  | rest => return ({ whole }, rest)

/-- Add typed numbers with units to a span. -/
def addTyped? : (fuel : Nat) → Duration → List Char → Option Duration
  | 0, _, _ => none
  | fuel + 1, total, cs => do
    let (number, rest) ← typedNumber? cs
    let unit ← SpanUnit.ofName? (String.ofList (rest.takeWhile isUnitLetter))
    let total ← number.addTo? unit total
    match (rest.dropWhile isUnitLetter).dropWhile isSpanBlank with
    | [] => return total
    | rest => addTyped? fuel total rest

/-- The span that a text types. A zero needs no unit. -/
def Duration.ofTyped? (text : String) : Option Duration :=
  if text = "0" then some .zero else addTyped? text.length .zero text.toList

end CollectionTree
