import EffectScript.Json.Scan

/-!
# Reading JSON numbers

An integer that fits 64 bits is kept exactly.  Every other number becomes a double: its leading
digits are taken as a 64-bit significand, further digits only move the exponent, and the significand
is multiplied or divided once by a power of ten (more often only for very small numbers).
-/

namespace EffectScript.Json

/-- A number that was read. -/
inductive Numeric where
  | natural (number : Nat)
  /-- The negation of a positive number. -/
  | negative (number : Nat)
  | float (number : Float)

/-- Largest significand. -/
def largestSignificand : Nat := UInt64.size - 1

/-- Largest exponent that is counted. -/
def largestExponent : Nat := 0x7FFFFFFF

/-- The double nearest to an integer. -/
def nearestFloat (number : Nat) : Float :=
  Number.ofMagnitude false (Number.quotientBits number 1)

/-- The double nearest to a power of ten. -/
def powerOfTen (exponent : Nat) : Float :=
  Number.ofMagnitude false (Number.decimalBits 1 exponent)

/-- Largest exponent with a finite power of ten. -/
def tabulated : Nat := 308

/-- Scale a double by a power of ten; what becomes infinite is refused.  An exponent below the
powers of ten at hand is worked off in steps. -/
def scaleWithin : Nat → Float → Int → Except Fault Float
  | 0, value, _ => .ok value
  | bound + 1, value, exponent =>
    if exponent.natAbs ≤ tabulated then
      let power := powerOfTen exponent.natAbs
      if exponent < 0 then .ok (value / power)
      else
        let product := value * power
        if product.isInf then .error .malformed else .ok product
    else if value == 0.0 then .ok value
    else if 0 ≤ exponent then .error .malformed
    else scaleWithin bound (value / powerOfTen tabulated) (exponent + tabulated)

/-- Scale a double by a power of ten; after a few steps down every value is zero. -/
def scale (value : Float) (exponent : Int) : Except Fault Float :=
  scaleWithin 8 value exponent

/-- Negate a double if asked to. -/
def signed (positive : Bool) (value : Float) : Float :=
  if positive then value else -value

/-- Append digits to a significand as long as it fits; the digits that do not fit are returned. -/
def accumulate (significand : Nat) : List Char → Nat × List Char
  | [] => (significand, [])
  | digit :: rest =>
    let longer := 10 * significand + (digit.toNat - '0'.toNat)
    if largestSignificand < longer then (significand, digit :: rest)
    else accumulate longer rest

namespace Scan

/-- The double of a significand and an exponent. -/
def floatOfParts (positive : Bool) (significand : Nat) (exponent : Int) : Scan Float := do
  match scale (nearestFloat significand) exponent with
  | .ok value => return signed positive value
  | .error fault => throw fault

/-- Read an exponent at its mark. -/
def exponent (positive : Bool) (significand : Nat) (start : Int) : Scan Float := do
  skip
  let sign ← peek?
  if sign == some '+' || sign == some '-' then skip
  let positiveExponent := sign != some '-'
  let first ← next
  if Number.isDigit first then
    let magnitude := Number.digitsValue (first :: (← digits))
    if largestExponent < magnitude then
      -- Such an exponent makes every nonzero number infinite or zero.
      if significand != 0 && positiveExponent then throw .malformed
      else return signed positive 0.0
    else
      let change : Int := if positiveExponent then magnitude else -magnitude
      floatOfParts positive significand (start + change)
  else throw .malformed

/-- Read an optional exponent. -/
def optionalExponent (positive : Bool) (significand : Nat) (start : Int) : Scan Float := do
  let mark ← peek?
  if mark == some 'e' || mark == some 'E' then exponent positive significand start
  else floatOfParts positive significand start

/-- Read a fraction at its point. -/
def fraction (positive : Bool) (significand : Nat) (start : Int) : Scan Float := do
  skip
  let run ← digits
  if run.isEmpty then
    match ← peek? with
    | some _ => throw .malformed
    | none => throw .truncated
  else
    let (significand, dropped) := accumulate significand run
    optionalExponent positive significand (start - (run.length - dropped.length : Nat))

/-- The number of an integer without fraction and exponent. -/
def integerNumeric (positive : Bool) (significand : Nat) : Numeric :=
  if positive then .natural significand
  else if significand == 0 || 0x8000000000000000 < significand then
    .float (-nearestFloat significand)
  else .negative significand

/-- Read a number behind its sign. -/
def numeric (positive : Bool) : Scan Numeric := do
  let first ← next
  if !Number.isDigit first then throw .malformed
  let run ← digits
  if first == '0' && !run.isEmpty then throw .malformed
  let (significand, dropped) := accumulate 0 (first :: run)
  let mark ← peek?
  if mark == some '.' then
    return .float (← fraction positive significand dropped.length)
  else if mark == some 'e' || mark == some 'E' then
    return .float (← exponent positive significand dropped.length)
  else if dropped.isEmpty then
    return integerNumeric positive significand
  else
    return .float (← floatOfParts positive significand dropped.length)

/-- Pass the digits that must stand here. -/
def skipDigits : Scan Unit := do
  if (← digits).isEmpty then throw .malformed

/-- Pass an exponent at its mark. -/
def skipExponent : Scan Unit := do
  skip
  let sign ← peek?
  if sign == some '+' || sign == some '-' then skip
  skipDigits

/-- Pass a number behind its sign, whatever its size. -/
def skipNumeric : Scan Unit := do
  let run ← digits
  match run with
  | [] => throw .malformed
  | '0' :: _ :: _ => throw .malformed
  | _ =>
    if (← peek?) == some '.' then
      skip
      skipDigits
    let mark ← peek?
    if mark == some 'e' || mark == some 'E' then skipExponent

end Scan

end EffectScript.Json
