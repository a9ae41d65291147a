import CollectionTree.Number.Binary64

/-!
# The shortest decimal text of a number

A floating-point number is written with the fewest digits that read back as the same number, the
nearest such decimal if there are several, and without an exponent however large or small it is.

The numbers that read back as `x` are those between the midpoints to its neighbours, and the
midpoints themselves if its significand is even. If a decimal with so many digits lies there, then
one of the two on either side of `x` does, so only those two are looked at for each number of
digits.
-/

namespace CollectionTree

/-- A positive decimal: `digits · 10 ^ exponent`. -/
structure Decimal where
  digits : Nat
  exponent : Int
  deriving DecidableEq, Repr

namespace Binary64

/-- Half the distance to the number below, the number itself and half the distance to the number
above, all as multiples of one unit whose scale is `scale` less two. -/
def roundingInterval (x : Binary64) : Nat × Nat × Nat :=
  (if x.significand = exponentUnit then 1 else 2, 4 * x.significand, 2)

/-- Whether `num / den` reads back as the number whose unit is `2 ^ (scale - 1076)`. -/
def readsBack (x : Binary64) (num den : Nat) : Bool :=
  let (below, middle, above) := x.roundingInterval
  let place := num <<< 1076
  let unit := den <<< x.scale
  if x.significand % 2 = 0 then
    (middle - below) * unit ≤ place && place ≤ (middle + above) * unit
  else (middle - below) * unit < place && place < (middle + above) * unit

/-- The nearer of the decimals with unit `10 ^ exponent` on either side of `x` that read back as
`x`, the upper one of two equally near. -/
def nearestOnGrid? (x : Binary64) (exponent : Int) : Option Decimal :=
  let up := Nat.pow 10 exponent.toNat
  let down := Nat.pow 10 (-exponent).toNat
  let num := (x.significand <<< x.scale) * down
  let den := up <<< 1074
  let lower := num / den
  let hit := fun n ↦ readsBack x (n * up) down
  let lowerIsNearer : Bool := 2 * (num % den) < den
  if hit lower && (lowerIsNearer || !hit (lower + 1)) then some ⟨lower, exponent⟩
  else if hit (lower + 1) then some ⟨lower + 1, exponent⟩
  else none

/-- The least power of ten above a positive finite number, looked for from `exponent` upwards. -/
def decimalPoint (x : Binary64) : (steps : Nat) → (exponent : Int) → Int
  | 0, exponent => exponent
  | steps + 1, exponent =>
    if (x.significand <<< x.scale) * Nat.pow 10 (-exponent).toNat <
        Nat.pow 10 exponent.toNat <<< 1074 then exponent
    else decimalPoint x steps (exponent + 1)

/-- The shortest decimal on the grids of `count` and more digits. -/
def shortestFrom (x : Binary64) (point : Int) : (fuel count : Nat) → Decimal
  | 0, count => ⟨(x.significand <<< x.scale) >>> 1074, point - count⟩
  | fuel + 1, count =>
    match x.nearestOnGrid? (point - count) with
    | some d => d
    | none => shortestFrom x point fuel (count + 1)

/-- The shortest decimal that reads back as a positive finite number. -/
def shortest (x : Binary64) : Decimal :=
  -- `2 ^ b ≤ x < 2 ^ (b + 1)` puts the decimal point at most one place beyond three tenths of `b`
  let binaryPoint : Int := x.significand.log2 + x.scale - 1074
  let point := decimalPoint x 4 (binaryPoint * 3 / 10 - if binaryPoint < 0 then 1 else 0)
  shortestFrom x point 17 1

end Binary64

/-- The decimal written out, with zeros where its digits do not reach the point and without a point
where nothing comes after it. -/
def Decimal.positional (d : Decimal) : String :=
  let digits := Nat.toDigits 10 d.digits
  if 0 ≤ d.exponent then String.ofList (digits ++ List.replicate d.exponent.toNat '0')
  else
    let places := (-d.exponent).toNat
    let padded := List.replicate (places + 1 - digits.length) '0' ++ digits
    let whole := padded.take (padded.length - places)
    let fraction := padded.drop (padded.length - places)
    let trimmed := (fraction.reverse.dropWhile (· == '0')).reverse
    String.ofList (if trimmed.isEmpty then whole else whole ++ '.' :: trimmed)

/-- The number's shortest text. -/
def Binary64.text (x : Binary64) : String :=
  if x.isNaN then "NaN"
  else
    let size :=
      if !x.isFinite then "inf" else if x.magnitude = 0 then "0" else x.shortest.positional
    if x.isNegative then "-" ++ size else size

end CollectionTree
