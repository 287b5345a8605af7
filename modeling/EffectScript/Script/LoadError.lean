import EffectScript.Language.Parser

/-!
# Why a script does not load

Header lines can declare sliders wrongly, and a body can nest too deeply.  Every cause knows the
source line it points at and its wording.
-/

namespace EffectScript.Script

open EffectScript.Language

/-- The numbers of a slider declaration. -/
inductive SliderField where
  | initial
  | least
  | greatest
  | step
  deriving DecidableEq, Repr

/-- How messages call a field. -/
def SliderField.label : SliderField → String
  | initial => "default"
  | least => "min"
  | greatest => "max"
  | step => "step"

/-- A header line that cannot be taken. -/
inductive HeaderError where
  /-- The line does not have the form of a slider declaration. -/
  | invalidSlider (line : Nat) (text : String)
  /-- The declared slider does not exist. -/
  | sliderOutOfRange (line number : Nat)
  /-- A field of the declaration is not a number. -/
  | invalidNumber (line : Nat) (field : SliderField) (text : String)
  deriving DecidableEq, Repr

namespace HeaderError

/-- The source line of the error, counted from one. -/
def line : HeaderError → Nat
  | invalidSlider line _ => line
  | sliderOutOfRange line _ => line
  | invalidNumber line _ _ => line

/-- The wording of the error. -/
def message : HeaderError → String
  | invalidSlider line text => s!"Malformed slider definition '{text}' on line {line}"
  | sliderOutOfRange line number => s!"Slider index {number} on line {line} is outside 1..=64"
  | invalidNumber line field text => s!"Invalid {field.label} value '{text}' on line {line}"

end HeaderError

/-- Why a script does not load. -/
inductive LoadError where
  | header (cause : HeaderError)
  | nesting (cause : NestingError)
  deriving DecidableEq, Repr

namespace LoadError

/-- The source line that the error points at, counted from one. -/
def line : LoadError → Nat
  | header cause => cause.line
  | nesting cause => cause.line

/-- The wording of the error. -/
def message : LoadError → String
  | header cause => "Header error: " ++ cause.message
  | nesting cause =>
    s!"Parse error: Expression nested too deeply at line {cause.line}, column {cause.column}"

/-- The remark under the marked line of a report. -/
def remark : LoadError → String
  | header _ => "in this header line"
  | nesting _ => "nested too deeply here"

end LoadError

end EffectScript.Script
