import EffectScript.Script.LoadError
import EffectScript.Text.Blank

/-!
# Slider declarations

A declaration reads `sliderN:initial<least,greatest>label`, where a comma, a step and a list of
value names in braces may follow the greatest value.  The texts between the delimiters are taken
first; only then are the number of the slider and its fields read, in this order: slider number,
step, initial value, least value, greatest value.  The first that cannot be read decides the error.
-/

namespace EffectScript.Script

open EffectScript.Language

/-- A declared slider. -/
structure Slider where
  /-- The slider, counted from zero. -/
  index : Nat
  initial : Float
  least : Float
  greatest : Float
  step : Float
  label : String
  /-- Names of the slider's values, if they are listed. -/
  valueNames : List String

/-- The texts of a declaration between its delimiters. -/
structure SliderTexts where
  number : List Char
  initial : List Char
  least : List Char
  greatest : List Char
  /-- The step and the list of value names. -/
  step : List Char
  label : List Char
  deriving DecidableEq, Repr

/-- The step of a slider whose declaration names none. -/
def standardStep : Float := 0.01

/-- Largest number that a declaration can hold. -/
def largestNumber : Nat := UInt64.size - 1

/-- Split at the first character that ends a field; the field must not be empty. -/
def splitField? (ends : Char → Bool) (text : List Char) : Option (List Char × List Char) :=
  let field := text.takeWhile fun c => !ends c
  if field.isEmpty then none else some (field, text.dropWhile fun c => !ends c)

/-- Remove an expected character in front. -/
def dropMark? (mark : Char) : List Char → Option (List Char)
  | [] => none
  | c :: rest => if c == mark then some rest else none

/-- Remove an optional comma in front. -/
def dropComma : List Char → List Char
  | ',' :: rest => rest
  | text => text

/-- Remove the word `slider` in front. -/
def dropSliderWord? : List Char → Option (List Char)
  | 's' :: 'l' :: 'i' :: 'd' :: 'e' :: 'r' :: rest => some rest
  | _ => none

/-- A comma or a closing angle bracket. -/
def endsBound (c : Char) : Bool :=
  c == ',' || c == '>'

/-- Take the texts of a declaration. -/
def SliderTexts.ofLine? (line : List Char) : Option SliderTexts := do
  let afterWord ← dropSliderWord? line
  let (number, rest) ← splitField? (fun c => !Number.isDigit c) afterWord
  let rest ← dropMark? ':' rest
  let (initial, rest) ← splitField? (· == '<') rest
  let rest ← dropMark? '<' rest
  let (least, rest) ← splitField? endsBound rest
  let rest ← dropMark? ',' rest
  let (greatest, rest) ← splitField? endsBound rest
  let rest := dropComma rest
  let step := rest.takeWhile (· != '>')
  let label ← dropMark? '>' (rest.dropWhile (· != '>'))
  return ⟨number, initial, least, greatest, step, label⟩

/-- The pieces of a text between commas. -/
def splitCommas : List Char → List (List Char)
  | [] => [[]]
  | c :: rest =>
    if c == ',' then [] :: splitCommas rest
    else
      match splitCommas rest with
      | [] => [[c]]
      | piece :: more => (c :: piece) :: more

/-- Remove a closing brace at the end. -/
def dropClosingBrace (text : List Char) : List Char :=
  if text.getLast? == some '\x7d' then text.dropLast else text

/-- Split the step from the list of value names after the first opening brace. -/
def splitValueNames (text : List Char) : List Char × List String :=
  let step := text.takeWhile (· != '\x7b')
  match text.dropWhile (· != '\x7b') with
  | [] => (step, [])
  | _ :: list =>
    let names := ((splitCommas (dropClosingBrace list)).map Text.trim).filter (!·.isEmpty)
    (step, names.map String.ofList)

/-- Read a field as a number, blanks around it aside. -/
def readField (line : Nat) (field : SliderField) (text : List Char) :
    Except HeaderError Float :=
  let trimmed := Text.trim text
  match Number.readFloat? trimmed with
  | some value => .ok value
  | none => .error (.invalidNumber line field (String.ofList trimmed))

/-- Read the step; a blank one is the standard step. -/
def readStep (line : Nat) (text : List Char) : Except HeaderError Float :=
  if (Text.trim text).isEmpty then .ok standardStep else readField line .step text

/-- Read a declaration on a trimmed header line. -/
def Slider.ofLine (lineNumber : Nat) (line : List Char) : Except HeaderError Slider :=
  match SliderTexts.ofLine? line with
  | none => .error (.invalidSlider lineNumber (String.ofList line))
  | some texts => do
    let number := Number.digitsValue texts.number
    if largestNumber < number then
      .error (.invalidSlider lineNumber (String.ofList line))
    else if number < 1 || sliderCount < number then
      .error (.sliderOutOfRange lineNumber number)
    else
      let (stepText, valueNames) := splitValueNames texts.step
      let step ← readStep lineNumber stepText
      let initial ← readField lineNumber .initial texts.initial
      let least ← readField lineNumber .least texts.least
      let greatest ← readField lineNumber .greatest texts.greatest
      return {
        index := number - 1
        initial
        least
        greatest
        step
        label := String.ofList (Text.trim texts.label)
        valueNames }

end EffectScript.Script
