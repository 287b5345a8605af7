import EffectScript.Effect

/-!
# Values that wait for a processing call

What waits in a bank, and what is left in the automation lanes, as functions of the slider.  Setting
sliders from such a function leaves each slider with its value, if it has one, and touches nothing
else.
-/

namespace EffectScript

open EffectScript.Language Control

/-! ### Tables of values -/

/-- The values that a function gives to sliders, in order. -/
def valueTable (value? : Nat → Option Float) : List (Nat × Float) :=
  (List.range sliderCount).filterMap fun index => (value? index).map fun value => (index, value)

theorem isEmpty_valueTable (value? : Nat → Option Float) :
    (!(valueTable value?).isEmpty) = true ↔
      ∃ index < sliderCount, (value? index).isSome = true := by
  have empty : valueTable value? = [] ↔ ∀ index < sliderCount, value? index = none := by
    simp [valueTable, List.filterMap_eq_nil_iff]
  rw [Bool.not_eq_true', ← Bool.not_eq_true, List.isEmpty_iff, empty]
  simp only [Classical.not_forall, exists_prop, Option.isSome_iff_ne_none, ne_eq]

/-- Storing the values of a table slot by slot. -/
theorem getElem_foldl_entries {size : Nat} (value? : Nat → Option Float) (indices : List Nat)
    (sliders : Vector Float size) {index : Nat} (bound : index < size) :
    ((indices.filterMap fun index => (value? index).map fun value => (index, value)).foldl
        (fun sliders entry => sliders.setIfInBounds entry.1 entry.2) sliders)[index] =
      if index ∈ indices then (value? index).getD sliders[index] else sliders[index] := by
  induction indices generalizing sliders with
  | nil => simp
  | cons first rest ih =>
    cases given : value? first with
    | none =>
      simp only [List.filterMap_cons, given, Option.map_none, ih, List.mem_cons]
      by_cases same : index = first
      · subst same
        simp [given]
      · simp [same]
    | some value =>
      simp only [List.filterMap_cons, given, Option.map_some, List.foldl_cons, ih, List.mem_cons,
        Vector.getElem_setIfInBounds]
      by_cases same : index = first
      · subst same
        simp [given]
      · simp [same, Ne.symm same]

namespace Interpreter

/-- The interpreter with other sliders. -/
def withSliders (interpreter : Interpreter) (value : Nat → Float) : Interpreter :=
  { interpreter with
    context := { interpreter.context with sliders := .ofFn fun index => value index } }

theorem parameter_withSliders (interpreter : Interpreter) (value : Nat → Float) {index : Nat}
    (bound : index < sliderCount) :
    (interpreter.withSliders value).parameter index = value index := by
  simp [parameter, withSliders, bound]

theorem withSliders_withSliders (interpreter : Interpreter) (first second : Nat → Float) :
    (interpreter.withSliders first).withSliders second = interpreter.withSliders second := by
  simp only [withSliders]

theorem withSliders_congr (interpreter : Interpreter) {first second : Nat → Float}
    (same : ∀ index < sliderCount, first index = second index) :
    interpreter.withSliders first = interpreter.withSliders second := by
  rw [withSliders, withSliders, funext fun index : Fin sliderCount => same index index.isLt]

theorem withSliders_parameter (interpreter : Interpreter) :
    interpreter.withSliders interpreter.parameter = interpreter := by
  have sliders : (Vector.ofFn fun index : Fin sliderCount => interpreter.parameter index) =
      interpreter.context.sliders := by
    ext index bound
    simp [parameter]
  rw [withSliders, sliders]

end Interpreter

theorem Effect.storeParameters_eq (interpreter : Interpreter) (values : List (Nat × Float)) :
    storeParameters interpreter values =
      { interpreter with
        context := { interpreter.context with
          sliders := values.foldl (fun sliders entry => sliders.setIfInBounds entry.1 entry.2)
            interpreter.context.sliders } } := by
  induction values generalizing interpreter with
  | nil => rfl
  | cons entry rest ih =>
    rw [storeParameters, List.foldl_cons]
    exact ih _

theorem Effect.storeParameters_valueTable (interpreter : Interpreter)
    (value? : Nat → Option Float) :
    storeParameters interpreter (valueTable value?) =
      interpreter.withSliders fun index => (value? index).getD (interpreter.parameter index) := by
  have sliders : (valueTable value?).foldl
      (fun sliders entry => sliders.setIfInBounds entry.1 entry.2) interpreter.context.sliders =
        .ofFn fun index : Fin sliderCount =>
          (value? index).getD (interpreter.parameter index) := by
    ext index bound
    rw [valueTable, getElem_foldl_entries value? _ _ bound]
    simp [Interpreter.parameter, bound]
  rw [storeParameters_eq, sliders, Interpreter.withSliders]

/-! ### Banks -/

namespace Control.ParameterBank

/-- The value that waits in a slot. -/
def waitingAt (bank : ParameterBank) (index : Nat) : Option Float :=
  bank.slots[index]?.bind ParameterSlot.waiting?

theorem waiting_eq (bank : ParameterBank) : bank.waiting = valueTable bank.waitingAt := by
  rw [waiting, valueTable]
  congr 1
  funext index
  rw [waitingAt]
  cases bank.slots[index]? <;> rfl

theorem waitingAt_set (bank : ParameterBank) (index : Nat) (value : Float) {other : Nat}
    (bound : other < sliderCount) :
    (bank.set index value).2.waitingAt other =
      if index = other then some value else bank.waitingAt other := by
  simp only [set, waitingAt, Vector.getElem?_setIfInBounds]
  by_cases same : index = other
  · subst same
    simp [bound, ParameterSlot.ask, ParameterSlot.waiting?]
  · simp [same]

/-- What waits after a request depends only on what waited before. -/
theorem waitingAt_set_congr {first second : ParameterBank}
    (same : ∀ index, first.waitingAt index = second.waitingAt index) (index : Nat)
    (value : Float) (other : Nat) :
    (first.set index value).2.waitingAt other = (second.set index value).2.waitingAt other := by
  by_cases bound : other < sliderCount
  · rw [waitingAt_set _ _ _ bound, waitingAt_set _ _ _ bound, same]
  · simp [waitingAt, bound]

theorem waitingAt_drain (bank : ParameterBank) (index : Nat) :
    bank.drain.2.waitingAt index = none := by
  simp only [drain, waitingAt, Vector.getElem?_map]
  cases bank.slots[index]? <;> rfl

theorem waitingAt_ofValues (values : List Float) (index : Nat) :
    (ofValues values).waitingAt index = none := by
  rw [waitingAt]
  cases found : (ofValues values).slots[index]? with
  | none => rfl
  | some slot =>
    obtain ⟨bound, rfl⟩ := Vector.getElem?_eq_some_iff.1 found
    simp [ofValues, ParameterSlot.idle, ParameterSlot.waiting?]

theorem waitingAt_fresh (index : Nat) : fresh.waitingAt index = none := by
  simp only [fresh, waitingAt, Vector.getElem?_replicate]
  split <;> rfl

theorem isPending_eq (bank : ParameterBank) (index : Nat) :
    bank.isPending index = (bank.waitingAt index).isSome := by
  rw [isPending, waitingAt]
  cases bank.slots[index]? with
  | none => rfl
  | some slot => cases pending : slot.pending <;> simp [ParameterSlot.waiting?, pending]

theorem get?_of_waitingAt {bank : ParameterBank} {index : Nat} {value : Float}
    (waits : bank.waitingAt index = some value) : bank.get? index = some value := by
  rw [waitingAt, Option.bind_eq_some_iff] at waits
  obtain ⟨slot, found, waits⟩ := waits
  rw [ParameterSlot.waiting?] at waits
  split at waits
  · simpa [get?, found] using waits
  · contradiction

end Control.ParameterBank

/-- What is done through a clone of a bank is done to the bank. -/
theorem Control.SharedBanks.get_set_share (bank changed : ParameterBank) :
    (((ofBank bank).share 0).2.set ((ofBank bank).share 0).1 changed).get 0 = changed := rfl

/-! ### Lanes -/

namespace Effect

/-- The values that automation has left for a slider. -/
def remaining (effect : Effect) (index : Nat) : List Float :=
  (effect.automation[index]?.map Automation.remaining).getD []

theorem laneValues_eq (effect : Effect) :
    laneValues effect.automation = valueTable fun index => (effect.remaining index).head? := by
  rw [laneValues, valueTable]
  congr 1
  funext index
  rw [remaining]
  cases effect.automation[index]? with
  | none => rfl
  | some lane =>
    obtain ⟨values⟩ := lane
    cases values <;> rfl

theorem remaining_of_automation_eq {effect other : Effect}
    (same : effect.automation = other.automation) (index : Nat) :
    effect.remaining index = other.remaining index := by
  rw [remaining, remaining, same]

/-! ### The start of a call -/

theorem interpreter_applyPending (effect : Effect) :
    effect.applyPending.2.interpreter =
      effect.interpreter.withSliders fun index =>
        (effect.parameters.waitingAt index).getD (effect.interpreter.parameter index) := by
  rw [← storeParameters_valueTable, ← ParameterBank.waiting_eq]
  rfl

theorem applyPending_iff (effect : Effect) :
    effect.applyPending.1 = true ↔
      ∃ index < sliderCount, (effect.parameters.waitingAt index).isSome = true := by
  rw [← isEmpty_valueTable, ← ParameterBank.waiting_eq]
  rfl

theorem interpreter_stepAutomation (effect : Effect) :
    effect.stepAutomation.2.interpreter =
      effect.interpreter.withSliders fun index =>
        (effect.remaining index).head?.getD (effect.interpreter.parameter index) := by
  rw [← storeParameters_valueTable effect.interpreter fun index => (effect.remaining index).head?,
    ← laneValues_eq]
  rfl

theorem stepAutomation_iff (effect : Effect) :
    effect.stepAutomation.1 = true ↔
      ∃ index < sliderCount, (effect.remaining index).head?.isSome = true := by
  rw [← isEmpty_valueTable, ← laneValues_eq]
  rfl

theorem remaining_stepAutomation (effect : Effect) (index : Nat) :
    effect.stepAutomation.2.remaining index = (effect.remaining index).tail := by
  have lanes : effect.stepAutomation.2.automation =
      effect.automation.map fun (lane : Automation) => lane.next.2 := rfl
  rw [remaining, remaining, lanes, Vector.getElem?_map]
  cases effect.automation[index]? with
  | none => rfl
  | some lane =>
    obtain ⟨values⟩ := lane
    cases values <;> rfl

/-- The interpreter with the sliders set for a call: what automation gives comes before what waits,
and what waits before what is there. -/
def stored (effect : Effect) : Interpreter :=
  effect.interpreter.withSliders fun index =>
    (effect.remaining index).head?.getD
      ((effect.parameters.waitingAt index).getD (effect.interpreter.parameter index))

/-- A slider has a value to take. -/
def HasNews (effect : Effect) : Prop :=
  ∃ index < sliderCount, (effect.parameters.waitingAt index).isSome = true ∨
    (effect.remaining index).head?.isSome = true

theorem interpreter_stepAutomation_applyPending (effect : Effect) :
    effect.applyPending.2.stepAutomation.2.interpreter = effect.stored := by
  rw [interpreter_stepAutomation, interpreter_applyPending, Interpreter.withSliders_withSliders,
    stored]
  refine Interpreter.withSliders_congr _ fun index bound => ?_
  rw [Interpreter.parameter_withSliders _ _ bound]
  rfl

/-- A call begins with the sliders set, and with one run of the slider section if any slider had a
value to take. -/
theorem interpreter_beginCall (effect : Effect) :
    (effect.HasNews → effect.beginCall.interpreter = effect.stored.runSlider) ∧
      (¬effect.HasNews → effect.beginCall.interpreter = effect.stored) := by
  have news : (effect.applyPending.1 || effect.applyPending.2.stepAutomation.1) = true ↔
      effect.HasNews := by
    rw [Bool.or_eq_true, applyPending_iff, stepAutomation_iff, ← exists_or]
    simp only [HasNews, ← and_or_left]
    rfl
  have begun : effect.beginCall =
      if effect.applyPending.1 || effect.applyPending.2.stepAutomation.1 then
        effect.applyPending.2.stepAutomation.2.mapInterpreter Interpreter.runSlider
      else effect.applyPending.2.stepAutomation.2 := rfl
  rw [← interpreter_stepAutomation_applyPending]
  constructor
  · intro some
    rw [begun, if_pos (news.2 some)]
    rfl
  · intro none
    rw [begun, if_neg (mt news.1 none)]

theorem parameters_beginCall (effect : Effect) :
    effect.beginCall.parameters = effect.parameters.drain.2 := by
  rw [beginCall]
  dsimp only
  split <;> rfl

theorem remaining_beginCall (effect : Effect) (index : Nat) :
    effect.beginCall.remaining index = (effect.remaining index).tail := by
  rw [← remaining_stepAutomation]
  refine remaining_of_automation_eq ?_ index
  rw [beginCall]
  dsimp only
  split <;> rfl

theorem loaded_beginCall (effect : Effect) : effect.beginCall.loaded = effect.loaded := by
  rw [beginCall]
  dsimp only
  split <;> rfl

end Effect

end EffectScript
