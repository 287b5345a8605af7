import EffectScript.Number.Extrema

/-!
# Functions that scripts can call

A function takes any number of arguments; one that is missing counts as zero, and those it has no
use for are ignored.
-/

namespace EffectScript.Machine

/-- The callable functions. -/
inductive Builtin where
  | sin
  | cos
  | tan
  | asin
  | acos
  | atan
  | atan2
  | exp
  | log
  | log10
  | pow
  | sqrt
  | abs
  | floor
  | ceil
  | min
  | max
  | sign
  /-- Decibels to an amplitude factor. -/
  | db2gain
  /-- An amplitude factor to decibels. -/
  | gain2db
  /-- A note number to a frequency. -/
  | midi2freq
  /-- A frequency to a note number. -/
  | freq2midi
  deriving DecidableEq, Repr

namespace Builtin

/-- All functions, in the order in which they are listed. -/
def all : List Builtin :=
  [sin, cos, tan, asin, acos, atan, atan2, exp, log, log10, pow, sqrt, abs, floor, ceil, min, max,
   sign, db2gain, gain2db, midi2freq, freq2midi]

/-- The name of a function in scripts. -/
def name : Builtin → String
  | sin => "sin"
  | cos => "cos"
  | tan => "tan"
  | asin => "asin"
  | acos => "acos"
  | atan => "atan"
  | atan2 => "atan2"
  | exp => "exp"
  | log => "log"
  | log10 => "log10"
  | pow => "pow"
  | sqrt => "sqrt"
  | abs => "abs"
  | floor => "floor"
  | ceil => "ceil"
  | min => "min"
  | max => "max"
  | sign => "sign"
  | db2gain => "db2gain"
  | gain2db => "gain2db"
  | midi2freq => "midi2freq"
  | freq2midi => "freq2midi"

/-- The function with a name. -/
def ofName? (wanted : String) : Option Builtin :=
  all.find? fun function => function.name == wanted

/-- Smallest amplitude and frequency that have a logarithm of their own. -/
def smallestLevel : Float := 1e-10

/-- One, minus one or zero, by the sign of a value. -/
def signOf (value : Float) : Float :=
  if 0.0 < value then 1.0 else if value < 0.0 then -1.0 else 0.0

/-- The value of a function of two values. -/
def value (function : Builtin) (x y : Float) : Float :=
  match function with
  | sin => x.sin
  | cos => x.cos
  | tan => x.tan
  | asin => x.asin
  | acos => x.acos
  | atan => x.atan
  | atan2 => Float.atan2 x y
  | exp => x.exp
  | log => x.log
  | log10 => x.log10
  | pow => Float.pow x y
  | sqrt => x.sqrt
  | abs => x.abs
  | floor => x.floor
  | ceil => x.ceil
  | min => Number.least x y
  | max => Number.greatest x y
  | sign => signOf x
  | db2gain => Float.pow 10.0 (x / 20.0)
  | gain2db => 20.0 * (Number.greatest x smallestLevel).log10
  | midi2freq => 440.0 * Float.pow 2.0 ((x - 69.0) / 12.0)
  | freq2midi => 69.0 + 12.0 * (Number.greatest x smallestLevel / 440.0).log2

/-- The value of a function of given arguments. -/
def apply (function : Builtin) (arguments : List Float) : Float :=
  function.value (arguments[0]?.getD 0.0) (arguments[1]?.getD 0.0)

@[simp]
theorem ofName?_name (function : Builtin) : ofName? function.name = some function := by
  cases function <;> rfl

end Builtin

end EffectScript.Machine
