import EffectScript.Number.Binary64

/-!
# Decimal numbers as text

The accepted texts are an optional sign followed by `inf`, `infinity` or `nan` in any letter case,
or by digits with at most one point and at least one digit, and then an optional exponent of `e` or
`E`, an optional sign and at least one digit.  The value is the nearest double, a tie going to the
even one.
-/

namespace EffectScript.Number

/-- A decimal digit. -/
def isDigit (c : Char) : Bool :=
  '0' ≤ c && c ≤ '9'

/-- The number whose decimal digits are those of a number and one more. -/
def appendDigit (total : Nat) (digit : Char) : Nat :=
  10 * total + (digit.toNat - '0'.toNat)

/-- Value of a run of decimal digits. -/
def digitsValue (digits : List Char) : Nat :=
  digits.foldl appendDigit 0

theorem foldl_appendDigit (digits : List Char) (total : Nat) :
    digits.foldl appendDigit total = total * Nat.pow 10 digits.length + digitsValue digits := by
  induction digits generalizing total with
  | nil => simp [digitsValue]
  | cons digit rest ih =>
    rw [digitsValue, List.foldl_cons, List.foldl_cons, ih, ih (appendDigit 0 digit)]
    simp only [appendDigit, List.length_cons, Nat.pow_eq, Nat.pow_succ]
    grind

/-- The value of digits in a row is made up of the values of two halves. -/
theorem digitsValue_append (first second : List Char) :
    digitsValue (first ++ second) =
      digitsValue first * Nat.pow 10 second.length + digitsValue second := by
  rw [digitsValue, List.foldl_append, foldl_appendDigit]
  rfl

/-- Value of a long run of decimal digits, which is halved a number of times. -/
def longDigitsValue : Nat → List Char → Nat
  | 0, digits => digitsValue digits
  | halvings + 1, digits =>
    let middle := digits.length / 2
    let second := digits.drop middle
    longDigitsValue halvings (digits.take middle) * Nat.pow 10 second.length +
      longDigitsValue halvings second

/-- Halving does not change the value. -/
theorem longDigitsValue_eq (halvings : Nat) (digits : List Char) :
    longDigitsValue halvings digits = digitsValue digits := by
  induction halvings generalizing digits with
  | zero => rfl
  | succ halvings ih =>
    rw [longDigitsValue, ih, ih, ← digitsValue_append, List.take_append_drop]

/-- Decimal digits of a number, most significant first. -/
def digitsOf (number : Nat) : List Char :=
  Nat.toDigits 10 number

/-- Bits of the double nearest to `significand * 10 ^ exponent`. -/
def decimalBits (significand : Nat) (exponent : Int) : Nat :=
  if significand == 0 then 0
  else if 310 ≤ exponent then infinityBits
  -- Ten is more than three doublings, and half of the smallest double is `2 ^ (-1075)`.
  else if (significand.log2 : Int) + 1076 ≤ 3 * -exponent then 0
  else if 0 ≤ exponent then quotientBits (significand * Nat.pow 10 exponent.toNat) 1
  else quotientBits significand (Nat.pow 10 (-exponent).toNat)

/-- The parts of a decimal numeral. -/
structure Numeral where
  integerDigits : List Char
  fractionDigits : List Char
  exponent : Int
  deriving DecidableEq, Repr

/-- Bits of the double nearest to a numeral. -/
def Numeral.bits (numeral : Numeral) : Nat :=
  let digits := numeral.integerDigits ++ numeral.fractionDigits
  decimalBits (longDigitsValue (digits.length / 64).log2 digits)
    (numeral.exponent - numeral.fractionDigits.length)

/-- Remove a leading sign; the flag tells a minus. -/
def splitSign : List Char → Bool × List Char
  | '-' :: rest => (true, rest)
  | '+' :: rest => (false, rest)
  | text => (false, text)

/-- An exponent that has reached this value takes no more digits. -/
def exponentBound : Nat := 65536

/-- Value of the digits of an exponent; digits behind the one that brings it to `exponentBound` or
beyond are ignored. -/
def exponentValue (digits : List Char) : Nat :=
  digits.foldl
    (fun total digit => if total < exponentBound then appendDigit total digit else total) 0

/-- Read a whole text as an exponent part, which may be absent. -/
def readExponent? : List Char → Option Int
  | [] => some 0
  | mark :: rest =>
    if mark == 'e' || mark == 'E' then
      let (negative, digits) := splitSign rest
      if digits.isEmpty || !digits.all isDigit then none
      else
        let magnitude : Int := exponentValue digits
        some (if negative then -magnitude else magnitude)
    else none

/-- Read a whole text as a numeral without sign. -/
def readNumeral? (text : List Char) : Option Numeral :=
  let integerDigits := text.takeWhile isDigit
  let rest := text.dropWhile isDigit
  let (fractionDigits, rest) :=
    match rest with
    | '.' :: rest => (rest.takeWhile isDigit, rest.dropWhile isDigit)
    | rest => ([], rest)
  if integerDigits.isEmpty && fractionDigits.isEmpty then none
  else (readExponent? rest).map fun exponent => ⟨integerDigits, fractionDigits, exponent⟩

/-- The letters of a text in lower case. -/
def lowerCase (text : List Char) : String :=
  String.ofList (text.map Char.toLower)

/-- Read a whole text as a double. -/
def readFloat? (text : List Char) : Option Float :=
  let (negative, body) := splitSign text
  let name := lowerCase body
  if name == "inf" || name == "infinity" then some (ofMagnitude negative infinityBits)
  else if name == "nan" then some (ofMagnitude negative (infinityBits + hiddenBit / 2))
  else (readNumeral? body).map fun numeral => ofMagnitude negative numeral.bits

end EffectScript.Number
