import EffectScript.Proofs.BlockLayout
import EffectScript.Proofs.HotSwap
import EffectScript.Proofs.InactiveEffects

/-!
# Blocks of any size

A script without block section cannot tell how its input is cut into blocks.  Every frame is
processed from the context that the frame before it left, and what waits at the start of a call is
taken by the first call alone.  So a block that is processed in two parts, either of which may be
empty, ends up with the same samples, and leaves the effect in the same state, as the block
processed at once.
-/

namespace EffectScript

open EffectScript.Language Machine Control

/-! ### Parts of a block -/

namespace Audio.Buffer

variable {whole part front back : Buffer} {start length : Nat}

/-- A block holds a stretch of the frames of another block, on the same channels. -/
structure HoldsPart (whole : Buffer) (start length : Nat) (part : Buffer) : Prop where
  room : part.HasRoom
  channels_eq : part.channels = whole.channels
  samples_eq : part.samples = length
  matrix_eq : part.matrix = whole.matrix.map fun row => row.extract start (start + length)

/-- The samples of a block are those of another block from one frame on. -/
structure ShowsAt (start : Nat) (whole part : Buffer) : Prop where
  room : whole.HasRoom
  partRoom : part.HasRoom
  channels_eq : part.channels = whole.channels
  fits : start + part.samples ≤ whole.samples
  sample_eq {channel index : Nat} : channel < whole.channels → index < part.samples →
    whole.sample channel (start + index) = part.sample channel index

theorem HoldsPart.showsAt (holds : whole.HoldsPart start length part) (room : whole.HasRoom)
    (fits : start + length ≤ whole.samples) : ShowsAt start whole part where
  room := room
  partRoom := holds.room
  channels_eq := holds.channels_eq
  fits := holds.samples_eq ▸ fits
  sample_eq {channel index} inChannels inPart := by
    have rows := holds.matrix_eq
    rw [holds.room.matrix_eq, room.matrix_eq, holds.channels_eq, List.map_map,
      List.map_inj_left] at rows
    have row := rows channel (List.mem_range.2 inChannels)
    have inLength : index < length := holds.samples_eq ▸ inPart
    have inWhole : start + index < whole.samples := by omega
    have element := congrArg (fun row => row[index]?) row
    simp only [Function.comp_apply, Grid.row, Array.getElem?_ofFn, samples_grid, inPart, dite_true,
      Array.getElem?_extract, Array.size_ofFn, inWhole] at element
    rw [part.get_grid (holds.channels_eq ▸ inChannels) inPart] at element
    rw [if_pos (by omega), whole.get_grid inChannels inWhole] at element
    exact (Option.some.inj element).symm

namespace ShowsAt

variable (shows : ShowsAt start whole part)
include shows

/-- Writing a frame of the part in both places. -/
theorem setSample (channel : Nat) {index : Nat} (inside : index < part.samples) (value : Float32) :
    ShowsAt start (whole.setSample channel (start + index) value)
      (part.setSample channel index value) := by
  have fits := shows.fits
  have maps : whole.Maps (whole.setSample channel (start + index) value) _ :=
    shows.room.maps_setSample (by omega) value
  have partMaps : part.Maps (part.setSample channel index value) _ :=
    shows.partRoom.maps_setSample inside value
  refine ⟨maps.hasRoom shows.room, partMaps.hasRoom shows.partRoom, shows.channels_eq, fits, ?_⟩
  intro other position inChannels inPart
  have inWhole : start + position < whole.samples := by
    have : position < part.samples := inPart
    omega
  rw [maps.sample_eq inChannels inWhole,
    partMaps.sample_eq (shows.channels_eq ▸ inChannels) inPart, shows.sample_eq inChannels inPart]
  simp only [Nat.add_left_cancel_iff]

/-- Writing a frame outside the part. -/
theorem setSample_apart (channel : Nat) {index : Nat} (inside : index < whole.samples)
    (apart : index < start ∨ start + part.samples ≤ index) (value : Float32) :
    ShowsAt start (whole.setSample channel index value) part := by
  have maps : whole.Maps (whole.setSample channel index value) _ :=
    shows.room.maps_setSample inside value
  refine ⟨maps.hasRoom shows.room, shows.partRoom, shows.channels_eq, shows.fits, ?_⟩
  intro other position inChannels inPart
  have fits := shows.fits
  rw [maps.sample_eq inChannels (by omega), if_neg (by omega), shows.sample_eq inChannels inPart]

end ShowsAt

/-- A block whose frames lie in two blocks has the rows of both, one behind the other. -/
theorem ShowsAt.matrix_eq_append (first : ShowsAt 0 whole front)
    (second : ShowsAt front.samples whole back)
    (samples : whole.samples = front.samples + back.samples) :
    whole.matrix = List.zipWith (· ++ ·) front.matrix back.matrix := by
  rw [first.room.matrix_eq, first.partRoom.matrix_eq, second.partRoom.matrix_eq, first.channels_eq,
    second.channels_eq, List.zipWith_map, List.zipWith_self]
  refine List.map_congr_left fun channel member => ?_
  have inChannels : channel < whole.channels := List.mem_range.1 member
  refine Array.ext (by simp [Grid.row, samples]) fun index inRow inParts => ?_
  have inWhole : index < whole.samples := by simpa [Grid.row] using inRow
  rw [Array.getElem_append]
  split
  · rename_i early
    have inFront : index < front.samples := by simpa [Grid.row] using early
    have value := first.sample_eq inChannels inFront
    rw [Nat.zero_add] at value
    simp only [Grid.row, Array.getElem_ofFn, whole.get_grid inChannels inWhole,
      front.get_grid (first.channels_eq ▸ inChannels) inFront, value]
  · rename_i late
    have behind : front.samples ≤ index := by simpa [Grid.row] using late
    have inBack : index - front.samples < back.samples := by omega
    have value := second.sample_eq inChannels inBack
    rw [Nat.add_sub_cancel' behind] at value
    simp only [Grid.row, Array.getElem_ofFn, Array.size_ofFn, samples_grid,
      whole.get_grid inChannels inWhole,
      back.get_grid (second.channels_eq ▸ inChannels) inBack, value]

end Audio.Buffer

open Audio.Buffer (ShowsAt HoldsPart)

/-! ### Frames -/

namespace Machine.Installed

variable (installed : Installed) {start length otherStart : Nat} {other : Audio.Buffer}

/-- A context with a block, and the same context with a part of the block, while another part of the
block stays as it is. -/
structure PartInStep (start length otherStart : Nat) (other : Audio.Buffer)
    (state part : Context × Audio.Buffer) : Prop where
  context_eq : state.1 = part.1
  shows : ShowsAt start state.2 part.2
  length_eq : part.2.samples = length
  keeps : ShowsAt otherStart state.2 other

variable {state part : Context × Audio.Buffer}

/-- Writing a frame of the part in both places. -/
theorem PartInStep.write (inStep : PartInStep start length otherStart other state part)
    (apart : start + length ≤ otherStart ∨ otherStart + other.samples ≤ start) {index : Nat}
    (inside : index < length) (after : Context) (channel : Nat) (value : Float32) :
    PartInStep start length otherStart other
      (after, state.2.setSample channel (start + index) value)
      (after, part.2.setSample channel index value) := by
  obtain ⟨_, shows, rfl, keeps⟩ := inStep
  have fits := shows.fits
  exact ⟨rfl, shows.setSample channel inside value, rfl,
    keeps.setSample_apart channel (by omega) (by omega) value⟩

theorem partInStep_runStereoFrame
    (apart : start + length ≤ otherStart ∨ otherStart + other.samples ≤ start) {index : Nat}
    (inside : index < length) (pair : 2 ≤ other.channels)
    (inStep : PartInStep start length otherStart other state part) :
    PartInStep start length otherStart other
      (installed.runStereoFrame (start + index) state.1 state.2)
      (installed.runStereoFrame index part.1 part.2) := by
  have channels := inStep.keeps.channels_eq
  have inPart : index < part.2.samples := inStep.length_eq ▸ inside
  have left := inStep.shows.sample_eq (show 0 < state.2.channels by omega) inPart
  have right := inStep.shows.sample_eq (show 1 < state.2.channels by omega) inPart
  simp only [runStereoFrame, left, right, inStep.context_eq]
  exact (inStep.write apart inside part.1 0 _).write apart inside _ 1 _

theorem partInStep_runMonoFrame
    (apart : start + length ≤ otherStart ∨ otherStart + other.samples ≤ start) {index : Nat}
    (inside : index < length) (some : 0 < other.channels)
    (inStep : PartInStep start length otherStart other state part) :
    PartInStep start length otherStart other
      (installed.runMonoFrame (start + index) state.1 state.2)
      (installed.runMonoFrame index part.1 part.2) := by
  have channels := inStep.keeps.channels_eq
  have inPart : index < part.2.samples := inStep.length_eq ▸ inside
  have sample := inStep.shows.sample_eq (show 0 < state.2.channels by omega) inPart
  simp only [runMonoFrame, sample, inStep.context_eq]
  exact inStep.write apart inside _ 0 _

/-- Run the sample section on one frame of a buffer with the given number of channels. -/
def runFrameOf (channels index : Nat) (state : Context × Audio.Buffer) : Context × Audio.Buffer :=
  if 2 ≤ channels then installed.runStereoFrame index state.1 state.2
  else installed.runMonoFrame index state.1 state.2

theorem runFrames_eq_fold (count : Nat) (context : Context) (buffer : Audio.Buffer) :
    installed.runFrames count context buffer =
      Nat.fold count (fun index _ => installed.runFrameOf buffer.channels index)
        (context, buffer) := by
  unfold runFrames runFrameOf
  split <;> rfl

theorem samples_runFrames (count : Nat) (context : Context) (buffer : Audio.Buffer) :
    (installed.runFrames count context buffer).2.samples = buffer.samples := by
  rw [runFrames_eq_fold]
  induction count with
  | zero => rfl
  | succ count ih =>
    rw [Nat.fold_succ, runFrameOf]
    split <;> exact ih

/-- Running the frames of a part, in the block and by themselves. -/
theorem PartInStep.runFrames {channels : Nat} (some : 0 < channels)
    (channels_eq : other.channels = channels)
    (apart : start + length ≤ otherStart ∨ otherStart + other.samples ≤ start)
    (inStep : PartInStep start length otherStart other state part) :
    PartInStep start length otherStart other
      (Nat.fold length (fun index _ => installed.runFrameOf channels (start + index)) state)
      (Nat.fold length (fun index _ => installed.runFrameOf channels index) part) := by
  obtain rfl := channels_eq
  refine fold_related (PartInStep start length otherStart other) ?_ inStep
  intro index inside state part inStep
  unfold runFrameOf
  split
  · rename_i pair
    exact installed.partInStep_runStereoFrame apart inside pair inStep
  · exact installed.partInStep_runMonoFrame apart inside some inStep

/-- The frames of a block are the frames of its two parts, the second run from the context that the
first leaves. -/
theorem runFrames_by_parts {whole front back : Audio.Buffer} (some : 0 < whole.channels)
    (first : ShowsAt 0 whole front) (second : ShowsAt front.samples whole back)
    (samples : whole.samples = front.samples + back.samples) (context : Context) :
    let played := installed.runFrames whole.samples context whole
    let early := installed.runFrames front.samples context front
    let late := installed.runFrames back.samples early.1 back
    played.1 = late.1 ∧ played.2.matrix = List.zipWith (· ++ ·) early.2.matrix late.2.matrix := by
  intro played early late
  let frame := installed.runFrameOf whole.channels
  let halfway := Nat.fold front.samples (fun index _ => frame index) (context, whole)
  have earlyEq : Nat.fold front.samples (fun index _ => frame index) (context, front) = early := by
    simp only [early, frame, installed.runFrames_eq_fold, first.channels_eq]
  have lateEq : Nat.fold back.samples (fun index _ => frame index) (early.1, back) = late := by
    simp only [late, frame, installed.runFrames_eq_fold, second.channels_eq]
  have playedEq : Nat.fold back.samples (fun index _ => frame (front.samples + index)) halfway =
      played := by
    simp only [played, halfway, frame, installed.runFrames_eq_fold]
    rw [samples, Nat.fold_add]
  -- The first part runs in step with the block while the second part stays as it is.
  have start : PartInStep 0 front.samples front.samples back (context, whole) (context, front) :=
    ⟨rfl, first, rfl, second⟩
  have between : PartInStep 0 front.samples front.samples back halfway early := by
    have run := start.runFrames installed some second.channels_eq (.inl (by omega))
    simp only [Nat.zero_add] at run
    rwa [earlyEq] at run
  -- Then the second part does so while the first stays as it was left.
  have turned : PartInStep front.samples back.samples 0 early.2 halfway (early.1, back) :=
    ⟨between.context_eq, between.keeps, rfl, between.shows⟩
  have finished : PartInStep front.samples back.samples 0 early.2 played late := by
    have channels : early.2.channels = whole.channels := by
      rw [between.shows.channels_eq, ← between.keeps.channels_eq, second.channels_eq]
    have apart : 0 + early.2.samples ≤ front.samples :=
      Nat.le_of_eq (by rw [between.length_eq, Nat.zero_add])
    have run := turned.runFrames installed some channels (.inr apart)
    rwa [lateEq, playedEq] at run
  refine ⟨finished.context_eq, finished.keeps.matrix_eq_append ?_ ?_⟩
  · rw [between.length_eq]
    exact finished.shows
  · rw [installed.samples_runFrames, between.length_eq, finished.length_eq, samples]

end Machine.Installed

/-! ### Blocks -/

/-- Without block section, a block that has channels is run frame by frame. -/
theorem Interpreter.runBlock_of_no_block {context : Context} {installed : Installed}
    {cpu : CpuMeter} (noBlock : installed.script.body? .block = none) {buffer : Audio.Buffer}
    (some : 0 < buffer.channels) :
    runBlock ⟨context, installed, cpu⟩ buffer =
      if (installed.script.body? .sample).isSome then
        ((installed.runFrames buffer.samples context buffer).2,
          ⟨(installed.runFrames buffer.samples context buffer).1, installed, cpu⟩)
      else (buffer, ⟨context, installed, cpu⟩) := by
  have absent : installed.run .block context = context := by
    rw [Installed.run, noBlock]
  have channels : (buffer.channels == 0) = false := by
    rw [beq_eq_false_iff_ne]
    exact Nat.ne_of_gt some
  simp only [runBlock, channels, Bool.false_eq_true, if_false, absent]

/-- Without block section, an interpreter runs a block as it runs its two parts in turn. -/
theorem Interpreter.runBlock_by_parts {interpreter : Interpreter}
    (noBlock : interpreter.hasSection .block = false) {whole front back : Audio.Buffer}
    (some : 0 < whole.channels) (first : ShowsAt 0 whole front)
    (second : ShowsAt front.samples whole back)
    (samples : whole.samples = front.samples + back.samples) :
    let played := interpreter.runBlock whole
    let early := interpreter.runBlock front
    let late := early.2.runBlock back
    played.1.matrix = List.zipWith (· ++ ·) early.1.matrix late.1.matrix ∧ late.2 = played.2 := by
  obtain ⟨context, installed, cpu⟩ := interpreter
  cases installed with
  | none => exact ⟨first.matrix_eq_append second samples, rfl⟩
  | some installed =>
    have absent : installed.script.body? .block = none :=
      Option.isNone_iff_eq_none.1 (Option.isSome_eq_false_iff.1 noBlock)
    have someFront : 0 < front.channels := first.channels_eq ▸ some
    have someBack : 0 < back.channels := second.channels_eq ▸ some
    dsimp only
    rw [runBlock_of_no_block absent some, runBlock_of_no_block absent someFront]
    split
    · rename_i sample
      rw [runBlock_of_no_block absent someBack, if_pos sample]
      obtain ⟨same, rows⟩ := installed.runFrames_by_parts some first second samples context
      exact ⟨rows, by rw [same]⟩
    · rename_i noSample
      rw [runBlock_of_no_block absent someBack, if_neg noSample]
      exact ⟨first.matrix_eq_append second samples, rfl⟩

theorem Interpreter.hasSection_run (interpreter : Interpreter) (kind other : Script.SectionKind) :
    (interpreter.run kind).hasSection other = interpreter.hasSection other := by
  simp only [hasSection, body?, installed_run]

/-! ### Calls in a row -/

namespace Control.ParameterBank

theorem waiting_drain (bank : ParameterBank) : bank.drain.2.waiting = [] := by
  simp [waiting_eq, valueTable, waitingAt_drain]

theorem drain_drain (bank : ParameterBank) : bank.drain.2.drain.2 = bank.drain.2 := by
  simp only [drain, Vector.map_map]
  rfl

end Control.ParameterBank

namespace Effect

variable {effect : Effect}

/-- All automation lanes are exhausted. -/
def LanesIdle (effect : Effect) : Prop :=
  ∀ lane ∈ effect.automation, lane.isActive = false

theorem LanesIdle.remaining_eq (idle : effect.LanesIdle) (index : Nat) :
    effect.remaining index = [] := by
  rw [remaining]
  cases found : effect.automation[index]? with
  | none => rfl
  | some lane =>
    have exhausted := idle lane (Vector.mem_of_getElem? found)
    simpa [Automation.isActive] using exhausted

/-- Where all lanes are exhausted, automation changes nothing. -/
theorem LanesIdle.stepAutomation_eq (idle : effect.LanesIdle) :
    effect.stepAutomation = (false, effect) := by
  have values : laneValues effect.automation = [] := by
    simp [laneValues_eq, valueTable, idle.remaining_eq]
  have lanes : effect.automation.map (fun (lane : Automation) => lane.next.2) =
      effect.automation := by
    refine Vector.ext fun index bound => ?_
    have exhausted := idle _ (Vector.getElem_mem bound)
    rw [Automation.isActive, Bool.not_eq_false', List.isEmpty_iff] at exhausted
    rw [Vector.getElem_map, Automation.next, exhausted]
  simp only [stepAutomation, values, lanes]
  rfl

/-- Where all lanes are exhausted, a call takes what waits and runs the slider section if anything
did. -/
theorem LanesIdle.beginCall_eq (idle : effect.LanesIdle) :
    effect.beginCall =
      if effect.applyPending.1 then effect.applyPending.2.mapInterpreter Interpreter.runSlider
      else effect.applyPending.2 := by
  have stillIdle : effect.applyPending.2.LanesIdle := idle
  simp only [beginCall, stillIdle.stepAutomation_eq, Bool.or_false]

theorem LanesIdle.beginCall (idle : effect.LanesIdle) : effect.beginCall.LanesIdle := by
  rw [idle.beginCall_eq]
  split <;> exact idle

/-- A call that finds nothing waiting and all lanes exhausted begins with the effect as it is. -/
theorem LanesIdle.beginCall_of_drained (idle : effect.LanesIdle) {bank : ParameterBank}
    (drained : effect.parameters = bank.drain.2) : effect.beginCall = effect := by
  have again : effect.parameters.drain = ([], effect.parameters) := by
    rw [drained]
    exact Prod.ext bank.waiting_drain bank.drain_drain
  have nothing : effect.applyPending = (false, effect) := by
    rw [applyPending, again]
    rfl
  rw [idle.beginCall_eq, nothing]
  rfl

theorem hasSection_beginCall (effect : Effect) (kind : Script.SectionKind) :
    effect.beginCall.interpreter.hasSection kind = effect.interpreter.hasSection kind := by
  have stored : effect.stored.hasSection kind = effect.interpreter.hasSection kind := by
    simp only [stored, Interpreter.withSliders, Interpreter.hasSection, Interpreter.body?]
  by_cases news : effect.HasNews
  · rw [effect.interpreter_beginCall.1 news, Interpreter.runSlider, Interpreter.hasSection_run,
      stored]
  · rw [effect.interpreter_beginCall.2 news, stored]

theorem isActive_beginCall (effect : Effect) : effect.beginCall.isActive = effect.isActive := by
  rw [beginCall]
  dsimp only
  split <;> rfl

theorem processBlock_of_active (upToDate : effect.UpToDate) (active : effect.isActive = true)
    (buffer : Audio.Buffer) :
    effect.processBlock buffer = effect.beginCall.runInterpreter (·.runBlock buffer) := by
  rw [processBlock, upToDate.receiveScript_eq, if_pos active]

/-- Blocks of any size.  An active effect whose script has no block section, with nothing handed
over and no automation, processes a block with channels as it processes any two parts of the block
in turn: the channels of the block are those of the parts one behind the other, and the effect ends
in the same state, with the same context and the same waiting parameters. -/
theorem processBlock_by_parts (ready : effect.ready = true) (unbypassed : effect.bypassed = false)
    (noBlock : effect.interpreter.hasSection .block = false) (upToDate : effect.UpToDate)
    (idle : effect.LanesIdle) {whole front back : Audio.Buffer} {frames : Nat}
    (room : whole.HasRoom) (some : 0 < whole.channels) (inside : frames ≤ whole.samples)
    (isFront : whole.HoldsPart 0 frames front)
    (isBack : whole.HoldsPart frames (whole.samples - frames) back) :
    let played := effect.processBlock whole
    let early := effect.processBlock front
    let late := early.2.processBlock back
    played.1.matrix = List.zipWith (· ++ ·) early.1.matrix late.1.matrix ∧
      late.2 = played.2 := by
  intro played early late
  have active : effect.isActive = true := by simp [isActive, ready, unbypassed]
  have first : ShowsAt 0 whole front := isFront.showsAt room (by omega)
  have second : ShowsAt front.samples whole back := by
    rw [isFront.samples_eq]
    exact isBack.showsAt room (by omega)
  have samples : whole.samples = front.samples + back.samples := by
    rw [isFront.samples_eq, isBack.samples_eq]
    omega
  have parts := Interpreter.runBlock_by_parts
    ((effect.hasSection_beginCall .block).trans noBlock) some first second samples
  have earlyEq : early = effect.beginCall.runInterpreter (·.runBlock front) :=
    processBlock_of_active upToDate active front
  have playedEq : played = effect.beginCall.runInterpreter (·.runBlock whole) :=
    processBlock_of_active upToDate active whole
  have lateEq : late = early.2.runInterpreter (·.runBlock back) := by
    have stillUpToDate : early.2.UpToDate := upToDate_call effect front _
    have stillActive : early.2.isActive = true := by
      rw [earlyEq, ← active]
      exact effect.isActive_beginCall
    have drained : early.2.parameters = effect.parameters.drain.2 := by
      rw [earlyEq]
      exact effect.parameters_beginCall
    have stillIdle : early.2.LanesIdle := by
      rw [earlyEq]
      exact idle.beginCall
    have begun : early.2.beginCall = early.2 := stillIdle.beginCall_of_drained drained
    have call := processBlock_of_active stillUpToDate stillActive back
    rwa [begun] at call
  rw [lateEq, earlyEq, playedEq]
  obtain ⟨rows, same⟩ := parts
  exact ⟨rows, by simp only [runInterpreter, same]⟩

/-- An effect that was loaded and prepared, and asked for a parameter since, is as blocks of any
size need it, up to the sections of its script. -/
theorem quiet_withLoaded {source : String} {script : Script}
    (compiled : (Script.compile source).value = .ok script) (sampleRate : Float)
    (maxBlockSize : Nat) {index : Nat} (bound : index < sliderCount) (value : Float) :
    let effect := (withLoaded source sampleRate maxBlockSize).setParameter index value
    effect.ready = true ∧ effect.bypassed = false ∧ effect.UpToDate ∧ effect.LanesIdle ∧
      effect.parameters.waitingAt index = some value ∧
      ∀ kind, effect.interpreter.hasSection kind = (script.body? kind).isSome := by
  have loaded : withLoaded source sampleRate maxBlockSize =
      ((fresh.loadScript script).value.prepare sampleRate maxBlockSize).value := by
    rw [withLoaded, value_load_of_ok compiled]
  have ready := flags_prepare (fresh.loadScript script).value sampleRate maxBlockSize
  have lanes := value_prepare (rested_loadScript fresh script).loaded sampleRate maxBlockSize
  have interpreter := interpreter_prepare_loadScript fresh script sampleRate maxBlockSize
  have prepared : (withLoaded source sampleRate maxBlockSize).bypassed = false ∧
      (withLoaded source sampleRate maxBlockSize).scripts = none := by
    rw [loaded]
    exact ⟨rfl, rfl⟩
  rw [← loaded] at ready lanes interpreter
  generalize withLoaded source sampleRate maxBlockSize = effect at *
  refine ⟨congrArg Prod.snd ready, prepared.1, ?_, ?_, ?_, fun kind => ?_⟩
  · intro channel attached
    exact absurd (prepared.2.symm.trans attached) (Option.some_ne_none channel).symm
  · intro lane member
    have idle : lane ∈ idleLanes := by
      rw [setParameter, lanes.2.1] at member
      exact member
    rw [Vector.eq_of_mem_replicate idle]
    rfl
  · rw [setParameter, ParameterBank.waitingAt_set _ _ _ bound, if_pos rfl]
  · rw [setParameter, interpreter, Interpreter.runSlider, Interpreter.hasSection_run,
      Interpreter.runInit, Interpreter.hasSection_run]
    rfl

/-- A low pass that keeps its state from frame to frame. -/
def smoothSource : String :=
  "slider1:0.5<0,1>Amount\n@slider k = slider1;\n@sample held += k * (spl0 - held);\nspl0 = held;\n"

/-- The low pass, with a parameter that waits. -/
def smooth : Effect :=
  (withLoaded smoothSource 44100.0 256).setParameter 0 0.25

/-- Three channels of three frames, cut behind the first frame. -/
theorem processBlock_by_parts_smooth :
    let whole := Audio.Buffer.ofChannels [#[1.0, 2.0, 3.0], #[4.0, 5.0, 6.0], #[7.0, 8.0, 9.0]]
    let front := Audio.Buffer.ofChannels [#[1.0], #[4.0], #[7.0]]
    let back := Audio.Buffer.ofChannels [#[2.0, 3.0], #[5.0, 6.0], #[8.0, 9.0]]
    smooth.interpreter.hasSection .sample = true ∧
      smooth.parameters.waitingAt 0 = some 0.25 ∧
      let played := smooth.processBlock whole
      let early := smooth.processBlock front
      let late := early.2.processBlock back
      played.1.matrix = List.zipWith (· ++ ·) early.1.matrix late.1.matrix ∧
        late.2 = played.2 := by
  intro whole front back
  have accepted : (Script.compile smoothSource).value.toOption.any (fun script =>
      (script.body? .sample).isSome && !(script.body? .block).isSome) = true := by
    decide +kernel
  cases compiled : (Script.compile smoothSource).value with
  | error cause =>
    rw [compiled] at accepted
    contradiction
  | ok script =>
    rw [compiled] at accepted
    obtain ⟨sample, noBlock⟩ := Bool.and_eq_true_iff.1 accepted
    obtain ⟨ready, unbypassed, upToDate, idle, waits, sections⟩ :=
      quiet_withLoaded compiled 44100.0 256 (show 0 < sliderCount by decide) 0.25
    have room : whole.HasRoom := by
      rw [Audio.Buffer.HasRoom]
      decide +kernel
    have isFront : whole.HoldsPart 0 1 front := by
      refine ⟨?_, by decide +kernel, by decide +kernel, by decide +kernel⟩
      rw [Audio.Buffer.HasRoom]
      decide +kernel
    have isBack : whole.HoldsPart 1 (whole.samples - 1) back := by
      refine ⟨?_, by decide +kernel, by decide +kernel, by decide +kernel⟩
      rw [Audio.Buffer.HasRoom]
      decide +kernel
    have absent : (script.body? .block).isSome = false := by simpa using noBlock
    have without := (sections .block).trans absent
    have parts := processBlock_by_parts ready unbypassed without upToDate idle room
      (by decide +kernel) (by decide +kernel) isFront isBack
    exact ⟨(sections .sample).trans sample, waits, parts⟩

end Effect

end EffectScript
