/-!
# Binary floating point, exactly

A finite double is a signed integer significand times a power of two.  This file takes a double
apart into these integers, rounds a quotient of integers to the nearest double (a tie goes to the
even significand), and truncates a double to a signed 64-bit integer.
-/

namespace EffectScript.Number

/-- What a double denotes. -/
inductive Denotation where
  /-- `significand * 2 ^ exponent`, negated if `negative`. -/
  | finite (negative : Bool) (significand : Nat) (exponent : Int)
  | infinite (negative : Bool)
  | notANumber
  deriving DecidableEq, Repr

/-- Exponent of the least significant bit of the smallest double. -/
def leastExponent : Int := -1074

/-- The bit above the fraction field, which the significand of a normal double has. -/
def hiddenBit : Nat := 0x10000000000000

/-- The bit of the sign. -/
def signBit : Nat := 0x8000000000000000

/-- Bits of positive infinity; every smaller pattern without sign is a finite double. -/
def infinityBits : Nat := 0x7FF0000000000000

/-- Read the sign, exponent and fraction fields of a double. -/
def denotation (value : Float) : Denotation :=
  let bits := value.toBits.toNat
  let negative := bits >>> 63 == 1
  let field : Nat := (bits >>> 52) % 2048
  let fraction := bits % hiddenBit
  if field == 2047 then
    if fraction == 0 then .infinite negative else .notANumber
  else if field == 0 then .finite negative fraction leastExponent
  else .finite negative (hiddenBit + fraction) (leastExponent + (field : Int) - 1)

/-- The integer nearest to a quotient; a tie goes to the even one. -/
def roundQuotient (numerator denominator : Nat) : Nat :=
  let quotient := numerator / denominator
  let twice := 2 * (numerator % denominator)
  if twice < denominator then quotient
  else if twice == denominator && quotient % 2 == 0 then quotient
  else quotient + 1

/-- The quotient scaled by `2 ^ (-exponent)`, as a numerator and a denominator. -/
def scaleQuotient (numerator denominator : Nat) (exponent : Int) : Nat × Nat :=
  if 0 ≤ exponent then (numerator, denominator <<< exponent.toNat)
  else (numerator <<< (-exponent).toNat, denominator)

/-- Exponent at which the integer part of the scaled quotient has 53 bits, or the least exponent. -/
def quotientExponent (numerator denominator : Nat) : Int :=
  let guess : Int := (numerator.log2 : Int) - (denominator.log2 : Int) - 53
  let scaled := scaleQuotient numerator denominator guess
  let exponent := if scaled.1 / scaled.2 < 2 * hiddenBit then guess else guess + 1
  max exponent leastExponent

/-- Bits of the nonnegative double nearest to a quotient; what is too large becomes infinity. -/
def quotientBits (numerator denominator : Nat) : Nat :=
  if numerator == 0 then 0
  else
    let exponent := quotientExponent numerator denominator
    let scaled := scaleQuotient numerator denominator exponent
    -- The hidden bit of a normal significand carries into the exponent field by itself.
    min infinityBits
      ((exponent - leastExponent).toNat * hiddenBit + roundQuotient scaled.1 scaled.2)

/-- The double with the given sign and magnitude bits. -/
def ofMagnitude (negative : Bool) (bits : Nat) : Float :=
  Float.ofBits (UInt64.ofNat (if negative then signBit + bits else bits))

/-- Largest signed 64-bit integer. -/
def largestInteger : Int := 0x7FFFFFFFFFFFFFFF

/-- Smallest signed 64-bit integer. -/
def smallestInteger : Int := -0x8000000000000000

/-- Restrict an integer to the signed 64-bit range. -/
def saturate (value : Int) : Int :=
  max smallestInteger (min largestInteger value)

/-- Drop the fraction and restrict to the signed 64-bit range; what is not a number becomes zero. -/
def truncate (value : Float) : Int :=
  match denotation value with
  | .notANumber => 0
  | .infinite negative => if negative then smallestInteger else largestInteger
  | .finite negative significand exponent =>
    let magnitude : Nat :=
      if exponent < 0 then significand >>> (-exponent).toNat
      -- Beyond this every nonzero significand is out of range anyway.
      else significand <<< (min exponent.toNat 64)
    saturate (if negative then -(magnitude : Int) else magnitude)

end EffectScript.Number
