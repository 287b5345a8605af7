import EffectScript.Number.Decimal

/-!
# Shortest decimal digits

Among the decimals that round to a given double, `shortest` finds the one with the fewest digits,
and of those the nearest to the double; an exact tie goes to the even digit.  A grid of decimals
with a given number of digits is tried only at the two neighbours of the value: if any point of the
grid rounds to the double, one of these does.
-/

namespace EffectScript.Number

/-- A positive decimal `digits * 10 ^ exponent`. -/
structure DecimalForm where
  digits : Nat
  exponent : Int
  deriving DecidableEq, Repr

/-- A positive value and the interval of reals that round to it, over one denominator. -/
structure RoundingInterval where
  low : Nat
  value : Nat
  high : Nat
  denominator : Nat
  /-- Whether the ends of the interval belong to it. -/
  closed : Bool
  deriving DecidableEq, Repr

/-- The reals that round to a positive double. -/
def roundingInterval (significand : Nat) (exponent : Int) : RoundingInterval :=
  -- Below a power of two the doubles lie twice as dense.
  let narrow := significand == hiddenBit && leastExponent < exponent
  let scale := 1 <<< (exponent - 2).toNat
  { low := (4 * significand - if narrow then 1 else 2) * scale
    value := 4 * significand * scale
    high := (4 * significand + 2) * scale
    denominator := 1 <<< (2 - exponent).toNat
    closed := significand % 2 == 0 }

namespace RoundingInterval

/-- Whether `digits` units of `unitNumerator / unitDenominator` lie in the interval. -/
def holds (interval : RoundingInterval) (digits unitNumerator unitDenominator : Nat) : Bool :=
  let point := digits * unitNumerator * interval.denominator
  let low := interval.low * unitDenominator
  let high := interval.high * unitDenominator
  if interval.closed then low ≤ point && point ≤ high else low < point && point < high

/-- The neighbour of the value on the grid of multiples of `10 ^ exponent` that rounds to it, the
nearer one if both do. -/
def onGrid? (interval : RoundingInterval) (exponent : Int) : Option DecimalForm :=
  let unitNumerator := Nat.pow 10 exponent.toNat
  let unitDenominator := Nat.pow 10 (-exponent).toNat
  let numerator := interval.value * unitDenominator
  let denominator := interval.denominator * unitNumerator
  let below := numerator / denominator
  let nearest := roundQuotient numerator denominator
  let other := if nearest == below then below + 1 else below
  if nearest != 0 && interval.holds nearest unitNumerator unitDenominator then
    some ⟨nearest, exponent⟩
  else if other != 0 && interval.holds other unitNumerator unitDenominator then
    some ⟨other, exponent⟩
  else none

/-- Try grids from the given exponent downwards. -/
def search (interval : RoundingInterval) : Nat → Int → DecimalForm
  | 0, exponent => ⟨interval.value / interval.denominator, exponent⟩
  | attempts + 1, exponent =>
    match interval.onGrid? exponent with
    | some found => found
    | none => interval.search attempts (exponent - 1)

end RoundingInterval

/-- Move factors of ten from the digits to the exponent. -/
def DecimalForm.normalize (form : DecimalForm) : DecimalForm :=
  let kept := (digitsOf form.digits).reverse.dropWhile (· == '0')
  let dropped := (digitsOf form.digits).length - kept.length
  ⟨digitsValue kept.reverse, form.exponent + dropped⟩

/-- The shortest decimal that rounds to the positive double `significand * 2 ^ exponent`. -/
def shortest (significand : Nat) (exponent : Int) : DecimalForm :=
  let interval := roundingInterval significand exponent
  -- An upper bound of the decimal order, from the number of bits: log 2 is below 0.30103.
  let bits : Int := significand.log2 + 1 + exponent
  let start := bits * 30103 / 100000 + 1
  (interval.search 24 start).normalize

end EffectScript.Number
