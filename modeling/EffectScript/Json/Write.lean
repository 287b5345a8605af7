import EffectScript.Number.Shortest

/-!
# Writing JSON

Compact JSON text: no blanks, object members in the order given.  A float is written with the
fewest digits that read back as it, positionally between `1e-5` and `1e16` and with an exponent
elsewhere; a float without such digits is written `null`.
-/

namespace EffectScript.Json

/-- A value to be written. -/
inductive Value where
  | null
  | natural (number : Nat)
  | float (number : Float)
  | string (text : String)
  | array (elements : List Value)
  | object (members : List (String × Value))

/-- Hexadecimal digits in lower case, padded with zeros to the given width. -/
def hexadecimal (width number : Nat) : List Char :=
  let digits := Nat.toDigits 16 number
  List.replicate (width - digits.length) '0' ++ digits

/-- How a character stands inside a quoted string: quotes, backslashes and control characters are
escaped, all else stands for itself. -/
def escapeChar (c : Char) : List Char :=
  if c == '"' then ['\\', '"']
  else if c == '\\' then ['\\', '\\']
  else if c == '\n' then ['\\', 'n']
  else if c == '\r' then ['\\', 'r']
  else if c == '\t' then ['\\', 't']
  else if c == '\x08' then ['\\', 'b']
  else if c == '\x0c' then ['\\', 'f']
  else if c.toNat < 0x20 then '\\' :: 'u' :: hexadecimal 4 c.toNat
  else [c]

/-- A text as a quoted string. -/
def quote (text : String) : String :=
  "\"" ++ String.ofList (text.toList.flatMap escapeChar) ++ "\""

/-- Where positional notation ends: the point of a positional number stands after more than
`leastPoint` and at most `greatestPoint` of its digits. -/
structure FloatFormat where
  leastPoint : Int
  greatestPoint : Int

/-- The format of floats in JSON texts. -/
def floatFormat : FloatFormat := ⟨-5, 16⟩

/-- Digits with a point after the first `point` of them, which may lie outside the digits. -/
def positional (digits : List Char) (point : Int) : List Char :=
  if point ≤ 0 then '0' :: '.' :: List.replicate (-point).toNat '0' ++ digits
  else
    let whole := digits.take point.toNat
    let fraction := digits.drop point.toNat
    whole ++ List.replicate (point.toNat - digits.length) '0' ++
      '.' :: if fraction.isEmpty then ['0'] else fraction

/-- Digits with a point after the first of them, if there are others, and a signed exponent. -/
def scientific (digits : List Char) (point : Int) : List Char :=
  let exponent := point - 1
  let mantissa :=
    match digits with
    | first :: second :: more => first :: '.' :: second :: more
    | short => short
  mantissa ++ 'e' :: (if exponent < 0 then '-' else '+') :: Number.digitsOf exponent.natAbs

/-- The text of a float. -/
def floatText (number : Float) : String :=
  match Number.denotation number with
  | .notANumber => "null"
  | .infinite _ => "null"
  | .finite negative significand exponent =>
    let magnitude :=
      if significand == 0 then "0.0".toList
      else
        let form := Number.shortest significand exponent
        let digits := Number.digitsOf form.digits
        let point : Int := digits.length + form.exponent
        if floatFormat.leastPoint < point && point ≤ floatFormat.greatestPoint then
          positional digits point
        else scientific digits point
    String.ofList (if negative then '-' :: magnitude else magnitude)

namespace Value

mutual

/-- The compact text of a value. -/
def compact : Value → String
  | .null => "null"
  | .natural number => toString number
  | .float number => floatText number
  | .string text => quote text
  | .array elements => "[" ++ String.intercalate "," (compactElements elements) ++ "]"
  | .object members => "\x7b" ++ String.intercalate "," (compactMembers members) ++ "\x7d"

/-- The compact texts of array elements. -/
def compactElements : List Value → List String
  | [] => []
  | element :: rest => compact element :: compactElements rest

/-- The compact texts of object members. -/
def compactMembers : List (String × Value) → List String
  | [] => []
  | (key, value) :: rest => (quote key ++ ":" ++ compact value) :: compactMembers rest

end

/-- An array of strings. -/
def strings (texts : List String) : Value :=
  .array (texts.map .string)

end Value

end EffectScript.Json
