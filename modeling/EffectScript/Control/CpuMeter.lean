/-!
# Processing time

A meter smooths the times that its host reports: each new time moves the average a tenth of the way
towards itself.  The engine itself has no clock.
-/

namespace EffectScript.Control

/-- A moving average of processing times, in milliseconds. -/
structure CpuMeter where
  average : Float

namespace CpuMeter

/-- Weight of a new time. -/
def smoothing : Float := 0.1

/-- A meter without records. -/
def fresh : CpuMeter := ⟨0.0⟩

/-- Take a new time into the average. -/
def record (meter : CpuMeter) (elapsed : Float) : CpuMeter :=
  ⟨smoothing * elapsed + (1.0 - smoothing) * meter.average⟩

end CpuMeter

end EffectScript.Control
