/-!
# Binary floating point numbers of 64 bits

A number is kept as its word of bits: a sign, eleven bits of exponent and fifty-two bits of
fraction. Rounding is done with whole numbers only.

* `Binary64.ofRatio` is the number nearest to a fraction; of two that are equally near, the
  one whose last bit is zero;
* `Binary64.ofScientific` is the number nearest to a decimal one.
-/

namespace WorkflowTree

/-- A word of 64 bits that is read as a floating point number. -/
structure Binary64 where
  bits : UInt64
  deriving DecidableEq, Repr, Inhabited

namespace Binary64

/-- The number of bits of a fraction. -/
def fractionBits : Nat := 52

/-- The weight of the last bit of an exponent. -/
def exponentUnit : Nat := 0x10000000000000

/-- The word of infinity. Words above it are no numbers. -/
def infinity : Nat := 0x7FF0000000000000

/-- The weight of the sign. -/
def signBit : Nat := 0x8000000000000000

/-- The word without its sign. -/
def magnitude (x : Binary64) : Nat := x.bits.toNat % signBit

/-- The sign is a minus. -/
def negative (x : Binary64) : Bool := signBit ≤ x.bits.toNat

/-- The word is a number other than infinity. -/
def isFinite (x : Binary64) : Bool := x.magnitude < infinity

/-- A finite word without its sign is a whole multiple of a power of two, which this gives
as the multiplier and the exponent. -/
def decompose (x : Binary64) : Nat × Int :=
  let exponent := x.magnitude / exponentUnit
  let fraction := x.magnitude % exponentUnit
  if exponent = 0 then (fraction, -1074)
  else (fraction + exponentUnit, (exponent : Int) - 1075)

/-! ### Rounding -/

/-- The whole number nearest to a fraction. A half goes to the even neighbour. -/
def roundHalfEven (num den : Nat) : Nat :=
  let q := num / den
  let twice := 2 * (num % den)
  if twice < den then q
  else if den < twice then q + 1
  else q + q % 2

/-- The fraction `num / den` times `2 ^ e`, as a fraction. -/
def scale (num den : Nat) (e : Int) : Nat × Nat :=
  (num <<< e.toNat, den <<< (-e).toNat)

/-- The exponent of the greatest power of two that is not above a positive fraction. -/
def floorLog2 (num den : Nat) : Int :=
  let e : Int := (num.log2 : Int) - (den.log2 : Int)
  let (n, d) := scale num den (-e)
  if d ≤ n then e else e - 1

/-- The word without sign that is nearest to a fraction. Above all numbers it is infinity.
Since the fraction part of a word runs over into its exponent, the word is found by one
addition. -/
def nearestMagnitude (num den : Nat) : Nat :=
  if num = 0 then 0
  else
    let e := max (floorLog2 num den - fractionBits) (-1074)
    let (n, d) := scale num den (-e)
    min ((e + 1074).toNat * exponentUnit + roundHalfEven n d) infinity

/-- The word with a sign and the given other bits. -/
def ofMagnitude (negative : Bool) (m : Nat) : Binary64 :=
  ⟨.ofNat (m + if negative then signBit else 0)⟩

/-- The number nearest to a fraction. -/
def ofRatio (negative : Bool) (num den : Nat) : Binary64 :=
  ofMagnitude negative (nearestMagnitude num den)

/-- The number nearest to `digits * 10 ^ exponent`. Exponents that are out of reach for the
number of digits are not worked out. -/
def ofScientific (negative : Bool) (digits : Nat) (exponent : Int) : Binary64 :=
  if digits = 0 then ofMagnitude negative 0
  else
    let length : Int := (digits.log2 : Int) * 30103 / 100000 + 1
    if exponent + length > 320 then ofMagnitude negative infinity
    else if exponent + length < -340 then ofMagnitude negative 0
    else ofRatio negative (digits * Nat.pow 10 exponent.toNat) (Nat.pow 10 (-exponent).toNat)

end Binary64

end WorkflowTree
