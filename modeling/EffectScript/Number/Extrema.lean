/-!
# Extrema that ignore what is not a number

The smaller and the larger of two floats.  An operand that is not a number is ignored, and of two
equal operands (also of opposite zeros) the second is taken.
-/

namespace EffectScript.Number

/-- The smaller of two doubles. -/
def least (first second : Float) : Float :=
  if second.isNaN then first else if first < second then first else second

/-- The larger of two doubles. -/
def greatest (first second : Float) : Float :=
  if second.isNaN then first else if second < first then first else second

/-- The smaller of two singles. -/
def leastSingle (first second : Float32) : Float32 :=
  if second.isNaN then first else if first < second then first else second

/-- The larger of two singles. -/
def greatestSingle (first second : Float32) : Float32 :=
  if second.isNaN then first else if second < first then first else second

end EffectScript.Number
