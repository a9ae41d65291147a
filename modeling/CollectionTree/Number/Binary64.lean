/-!
# Binary floating-point numbers

A 64-bit floating-point number is kept as its bits: a sign, eleven bits of exponent and 52 bits of
fraction. A finite number is `significand · 2 ^ exponent` exactly, and a ratio of natural numbers is
rounded to the nearest such number, to the even one of two.
-/

namespace CollectionTree

/-- A 64-bit floating-point number: sign, exponent and fraction, from the highest bit down. -/
structure Binary64 where
  bits : UInt64
  deriving DecidableEq, Repr

namespace Binary64

/-- A number that the machine computed. -/
def ofFloat (x : Float) : Binary64 := ⟨x.toBits⟩

/-- The value of the lowest bit of the exponent, and of the significand's leading bit. -/
def exponentUnit : Nat := 1 <<< 52

/-- The number with the given sign whose other bits make `magnitude`. -/
def ofMagnitude (negative : Bool) (magnitude : Nat) : Binary64 :=
  ⟨(magnitude + if negative then 1 <<< 63 else 0).toUInt64⟩

/-- All bits but the sign. -/
def magnitude (x : Binary64) : Nat := x.bits.toNat % (1 <<< 63)

/-- The magnitude of infinity; larger ones stand for no number. -/
def infiniteMagnitude : Nat := 2047 * exponentUnit

/-- Infinity, or what lies as far below zero. -/
def infinity (negative : Bool) : Binary64 := ofMagnitude negative infiniteMagnitude

/-- Not a number. -/
def nan (negative : Bool) : Binary64 := ofMagnitude negative (infiniteMagnitude + (1 <<< 51))

/-- Whether the sign says that the number is negative. -/
def isNegative (x : Binary64) : Bool := x.bits.toNat ≥ 1 <<< 63

/-- Whether the bits stand for no number. -/
def isNaN (x : Binary64) : Bool := x.magnitude > infiniteMagnitude

/-- Whether the number is finite. -/
def isFinite (x : Binary64) : Bool := x.magnitude < infiniteMagnitude

/-- The number, if it is finite. -/
def finite? (x : Binary64) : Option Binary64 := if x.isFinite then some x else none

/-- The whole number that a finite number is a multiple of a power of two by. -/
def significand (x : Binary64) : Nat :=
  if x.magnitude < exponentUnit then x.magnitude
  else x.magnitude % exponentUnit + exponentUnit

/-- The exponent of that power of two, plus 1074. -/
def scale (x : Binary64) : Nat := x.magnitude / exponentUnit - 1

/-- Whether the number lies from zero to one, both included; a negative zero does. -/
def inUnit (x : Binary64) : Bool :=
  x.magnitude == 0 || !x.isNegative && x.magnitude ≤ 1023 * exponentUnit

/-- The whole part of a finite number's size times `2 ^ places`. -/
def scaledFloor (x : Binary64) (places : Nat) : Nat :=
  (x.significand <<< (x.scale + places)) >>> 1074

/-- The quotient of two numbers, rounded to the nearest whole number and to the even one of two. -/
def roundHalfEven (num den : Nat) : Nat :=
  let quotient := num / den
  let twice := 2 * (num % den)
  if twice < den ∨ twice = den ∧ quotient % 2 = 0 then quotient else quotient + 1

/-- The scale at which `num / den` has a significand of 53 bits, or the least scale. -/
def ratioScale (num den : Nat) : Nat :=
  let guess := num.log2 + 1074 - den.log2 - 53
  if (num <<< 1074) / (den <<< guess) < 1 <<< 53 then guess else guess + 1

/-- The number nearest to `num / den`; infinity if that is beyond the largest. -/
def ofRatio (negative : Bool) (num den : Nat) : Binary64 :=
  if num = 0 then ofMagnitude negative 0 else
  let scale := ratioScale num den
  let significand := roundHalfEven (num <<< 1074) (den <<< scale)
  ofMagnitude negative (min infiniteMagnitude (scale * exponentUnit + significand))

/-- The number nearest to `digits · 10 ^ exponent`. Exponents so large or so small that the answer
is infinity or zero are not multiplied out. -/
def ofDecimal (negative : Bool) (digits : Nat) (exponent : Int) : Binary64 :=
  if digits = 0 then ofMagnitude negative 0
  else if exponent > 400 then infinity negative
  else if digits.log2 + 1 + 3 * exponent < -1080 then ofMagnitude negative 0
  else if 0 ≤ exponent then ofRatio negative (digits * Nat.pow 10 exponent.toNat) 1
  else ofRatio negative digits (Nat.pow 10 (-exponent).toNat)

end Binary64

end CollectionTree
