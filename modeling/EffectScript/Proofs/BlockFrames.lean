import EffectScript.Proofs.BlockSplitting
import EffectScript.Proofs.InstalledScript

/-!
# A block is its frames in turn

Running a block is running the block section and then the sample section on one frame after the
other.  The buffer makes no difference: each frame is written back only after it was read, and no
frame is read twice, so what the sample section sees are the frames that the buffer held at first.
-/

namespace EffectScript

open EffectScript.Language Machine Script

/-! ### Frames of a buffer -/

namespace Audio

/-- Widening a sample and rounding it again gives the sample, as every single is a double.  Nothing
is known here of these conversions, which belong to the machine. -/
def RoundsBack : Prop :=
  ∀ sample : Float32, sample.toFloat.toFloat32 = sample

namespace Buffer

/-- A frame as a script sees it: the first two channels, or the only channel on both sides. -/
def frame (buffer : Buffer) (index : Nat) : Float × Float :=
  ((buffer.sample 0 index).toFloat,
    (buffer.sample (if 2 ≤ buffer.channels then 1 else 0) index).toFloat)

/-- All frames in order. -/
def frames (buffer : Buffer) : List (Float × Float) :=
  (List.range buffer.samples).map buffer.frame

/-- What a channel holds where a frame was written over `old`. -/
def overwrite (frame : Float × Float) (channel : Nat) (old : Float32) : Float32 :=
  if channel = 0 then frame.1.toFloat32
  else if channel = 1 then frame.2.toFloat32
  else old

/-- What a channel holds where frames were written from its start on. -/
def written (replies : List (Float × Float)) (channel index : Nat) (old : Float32) : Float32 :=
  match replies[index]? with
  | some reply => overwrite reply channel old
  | none => old

theorem written_of_length_le {replies : List (Float × Float)} {index : Nat}
    (behind : replies.length ≤ index) (channel : Nat) (old : Float32) :
    written replies channel index old = old := by
  rw [written, List.getElem?_eq_none behind]

theorem written_concat (replies : List (Float × Float)) (reply : Float × Float)
    (channel index : Nat) (old : Float32) :
    written (replies ++ [reply]) channel index old =
      if index = replies.length then overwrite reply channel old
      else written replies channel index old := by
  rcases Nat.lt_trichotomy index replies.length with inside | rfl | behind
  · rw [if_neg (Nat.ne_of_lt inside), written, written, List.getElem?_append_left inside]
  · rw [if_pos rfl, written, List.getElem?_concat_length]
  · have outside : (replies ++ [reply]).length ≤ index := by
      rw [List.length_append]
      exact behind
    rw [if_neg (Nat.ne_of_gt behind), written_of_length_le outside,
      written_of_length_le (Nat.le_of_lt behind)]

variable {before after : Buffer} {change : Nat → Nat → Float32 → Float32}

theorem Maps.channel?_eq (maps : before.Maps after change) (room : before.HasRoom)
    (channel : Nat) :
    after.channel? channel =
      if channel < before.channels then
        some (Array.ofFn fun index : Fin before.samples =>
          change channel index (before.sample channel index))
      else none := by
  rw [(maps.hasRoom room).channel?_eq, maps.channels_eq]
  split
  · rename_i inChannels
    refine congrArg some (Array.ext (by simp [Grid.row, maps.samples_eq]) fun index inRow _ => ?_)
    have inAfter : index < after.samples := by simpa [Grid.row] using inRow
    have inSamples : index < before.samples := maps.samples_eq ▸ inAfter
    simp only [Grid.row, Array.getElem_ofFn]
    rw [after.get_grid (maps.channels_eq ▸ inChannels) inAfter,
      maps.sample_eq inChannels inSamples]
  · rfl

/-- A block after frames were written over all of its own: they stand on the first two channels, or
their left sides on the only one, and the other channels are as before. -/
structure Holds (before : Buffer) (replies : List (Float × Float)) (after : Buffer) : Prop where
  channels_eq : after.channels = before.channels
  samples_eq : after.samples = before.samples
  left : after.channel? 0 = some (replies.map fun reply => reply.1.toFloat32).toArray
  right : 2 ≤ before.channels →
    after.channel? 1 = some (replies.map fun reply => reply.2.toFloat32).toArray
  others (channel : Nat) : 2 ≤ channel → after.channel? channel = before.channel? channel

theorem Maps.holds {replies : List (Float × Float)} (maps : before.Maps after (written replies))
    (room : before.HasRoom) (audible : 0 < before.channels)
    (length : replies.length = before.samples) : before.Holds replies after where
  channels_eq := maps.channels_eq
  samples_eq := maps.samples_eq
  left := by
    rw [maps.channel?_eq room, if_pos audible]
    refine congrArg _ (Array.ext (by simp [length]) fun index inside _ => ?_)
    have inReplies : index < replies.length := by simpa [length] using inside
    simp [written, overwrite, inReplies]
  right pair := by
    rw [maps.channel?_eq room, if_pos (show 1 < before.channels from pair)]
    refine congrArg _ (Array.ext (by simp [length]) fun index inside _ => ?_)
    have inReplies : index < replies.length := by simpa [length] using inside
    simp [written, overwrite, inReplies]
  others channel other := by
    have untouched (index : Nat) (old : Float32) : written replies channel index old = old := by
      unfold written overwrite
      split
      · rw [if_neg (by omega), if_neg (by omega)]
      · rfl
    rw [maps.channel?_eq room, (Maps.refl before).channel?_eq room]
    simp only [untouched]

/-- A block that was not touched holds its own frames, as samples are rounded back. -/
theorem HasRoom.holds_frames (room : before.HasRoom) (audible : 0 < before.channels)
    (roundsBack : RoundsBack) : before.Holds before.frames before := by
  refine Maps.holds ((Maps.refl before).congr fun channel inChannels index inSamples => ?_) room
    audible (by simp [frames])
  have same (place : Nat) : (before.sample place index).toFloat.toFloat32 =
      before.sample place index := roundsBack _
  simp only [written, frames, List.getElem?_map, List.getElem?_range inSamples, Option.map_some,
    overwrite, frame, same]
  split
  · rename_i first
    rw [first]
  · split
    · rename_i second
      rw [if_pos (by omega), second]
    · rfl

end Buffer

end Audio

open Audio.Buffer (Maps written overwrite)

/-! ### Frames in turn -/

namespace Interpreter

/-- The replies to frames in sequence, and the interpreter after them. -/
def runSamples (interpreter : Interpreter) :
    List (Float × Float) → List (Float × Float) × Interpreter
  | [] => ([], interpreter)
  | frame :: frames =>
    let first := interpreter.runSample frame.1 frame.2
    let later := first.2.runSamples frames
    (first.1 :: later.1, later.2)

theorem runSamples_concat (interpreter : Interpreter) (frames : List (Float × Float))
    (frame : Float × Float) :
    interpreter.runSamples (frames ++ [frame]) =
      let earlier := interpreter.runSamples frames
      let last := earlier.2.runSample frame.1 frame.2
      (earlier.1 ++ [last.1], last.2) := by
  induction frames generalizing interpreter with
  | nil => rfl
  | cons first frames ih =>
    simp only [List.cons_append, runSamples, ih]

theorem runSamples_of_absent {interpreter : Interpreter}
    (absent : interpreter.hasSection .sample = false) (frames : List (Float × Float)) :
    interpreter.runSamples frames = (frames, interpreter) := by
  induction frames with
  | nil => rfl
  | cons frame frames ih =>
    have missing : ¬interpreter.hasSection .sample = true := by simp [absent]
    have passed := runSample_of_absent missing frame.1 frame.2
    simp only [runSamples, passed, ih]

theorem runSample_of_installed {installed : Installed} {context : Context}
    {cpu : Control.CpuMeter} (present : (installed.script.body? .sample).isSome = true)
    (left right : Float) :
    runSample ⟨context, some installed, cpu⟩ left right =
      ((installed.runFrame left right context).1,
        ⟨(installed.runFrame left right context).2, some installed, cpu⟩) := by
  have found : (Interpreter.mk context (some installed) cpu).hasSection .sample = true := present
  rw [runSample, if_pos found]

end Interpreter

namespace Machine.Installed

variable (installed : Installed) {buffer current : Audio.Buffer} {index count : Nat}

/-- One frame of a buffer is read, run and written back. -/
theorem runFrameOf_eq (context : Context) (room : current.HasRoom)
    (inside : index < current.samples) :
    let outcome := installed.runFrame (current.frame index).1 (current.frame index).2 context
    let state := installed.runFrameOf current.channels index (context, current)
    state.1 = outcome.2 ∧
      current.Maps state.2 fun channel position old =>
        if position = index then overwrite outcome.1 channel old else old := by
  intro outcome state
  have left : current.Maps (current.setSample 0 index outcome.1.1.toFloat32) _ :=
    room.maps_setSample inside _
  by_cases pair : 2 ≤ current.channels
  · have shape : state = (outcome.2, (current.setSample 0 index outcome.1.1.toFloat32).setSample 1
        index outcome.1.2.toFloat32) := by
      simp only [state, outcome, runFrameOf, runStereoFrame, Audio.Buffer.frame, if_pos pair]
    have right : (current.setSample 0 index outcome.1.1.toFloat32).Maps
        ((current.setSample 0 index outcome.1.1.toFloat32).setSample 1 index
          outcome.1.2.toFloat32) _ := (left.hasRoom room).maps_setSample inside _
    rw [shape]
    refine ⟨rfl, (left.trans right).congr fun channel _ position _ => ?_⟩
    by_cases here : position = index
    · simp only [here, and_true, if_true, overwrite]
      split
      · rename_i second
        rw [second]
        rfl
      · rfl
    · simp only [here, and_false, if_false]
  · have shape : state = (outcome.2, current.setSample 0 index outcome.1.1.toFloat32) := by
      simp only [state, outcome, runFrameOf, runMonoFrame, Audio.Buffer.frame, if_neg pair]
    rw [shape]
    refine ⟨rfl, left.congr fun channel inChannels position _ => ?_⟩
    obtain rfl : channel = 0 := by omega
    simp only [true_and, overwrite, if_true]

/-- Replies to the first frames of a buffer, and the buffer into which they were written. -/
structure InTurn (cpu : Control.CpuMeter) (before : Audio.Buffer) (count : Nat)
    (outcome : List (Float × Float) × Interpreter) (state : Context × Audio.Buffer) : Prop where
  last_eq : outcome.2 = ⟨state.1, some installed, cpu⟩
  length_eq : outcome.1.length = count
  maps : before.Maps state.2 (written outcome.1)

variable {installed} {cpu : Control.CpuMeter} {outcome : List (Float × Float) × Interpreter}
  {state : Context × Audio.Buffer}

theorem InTurn.next (inTurn : installed.InTurn cpu buffer count outcome state)
    (present : (installed.script.body? .sample).isSome = true) (room : buffer.HasRoom)
    (audible : 0 < buffer.channels) (inside : count < buffer.samples) :
    let frame := buffer.frame count
    let last := outcome.2.runSample frame.1 frame.2
    installed.InTurn cpu buffer (count + 1) (outcome.1 ++ [last.1], last.2)
      (installed.runFrameOf buffer.channels count state) := by
  obtain ⟨ended, length, maps⟩ := inTurn
  intro frame last
  -- The frame that is read was not written before.
  have fresh (channel : Nat) (inChannels : channel < buffer.channels) :
      state.2.sample channel count = buffer.sample channel count := by
    rw [maps.sample_eq inChannels inside,
      Audio.Buffer.written_of_length_le (Nat.le_of_eq length)]
  have same : state.2.frame count = frame := by
    simp only [frame, Audio.Buffer.frame, maps.channels_eq]
    rw [fresh 0 audible, fresh _ (by split <;> omega)]
  have step := installed.runFrameOf_eq state.1 (maps.hasRoom room)
    (show count < state.2.samples from maps.samples_eq ▸ inside)
  rw [same, maps.channels_eq] at step
  have ran : last = ((installed.runFrame frame.1 frame.2 state.1).1,
      ⟨(installed.runFrame frame.1 frame.2 state.1).2, installed, cpu⟩) := by
    simp only [last, ended]
    exact Interpreter.runSample_of_installed present frame.1 frame.2
  refine ⟨?_, by simp [length], ?_⟩
  · rw [ran, step.1]
  · rw [ran]
    refine (maps.trans step.2).congr fun channel _ index _ => ?_
    rw [Audio.Buffer.written_concat, length]
    split
    · rename_i here
      rw [here, Audio.Buffer.written_of_length_le (Nat.le_of_eq length)]
    · rfl

/-- The first frames of a buffer, run in the buffer and run one by one. -/
theorem inTurn_fold (context : Context) (cpu : Control.CpuMeter)
    (present : (installed.script.body? .sample).isSome = true)
    (room : buffer.HasRoom) (audible : 0 < buffer.channels) (count : Nat)
    (inside : count ≤ buffer.samples) :
    installed.InTurn cpu buffer count
      (Interpreter.runSamples ⟨context, installed, cpu⟩ ((List.range count).map buffer.frame))
      (Nat.fold count (fun index _ => installed.runFrameOf buffer.channels index)
        (context, buffer)) := by
  induction count with
  | zero => exact ⟨rfl, rfl, Maps.refl buffer⟩
  | succ count ih =>
    rw [List.range_succ, List.map_append, List.map_singleton, Interpreter.runSamples_concat,
      Nat.fold_succ]
    exact (ih (Nat.le_of_succ_le inside)).next present room audible inside

end Machine.Installed

/-! ### Blocks -/

namespace Interpreter

/-- Running a block.  Without script or without channels nothing happens.  Otherwise the interpreter
ends as if the block section had run and then each frame of the block had been run by itself, and
the block holds the replies to its frames.  Without sample section the replies are the frames
themselves and the block is not touched; that it holds them needs that samples survive widening. -/
theorem runBlock_eq_runSamples (interpreter : Interpreter) {buffer : Audio.Buffer}
    (room : buffer.HasRoom) :
    (interpreter.isLoaded = false ∨ buffer.channels = 0 →
      interpreter.runBlock buffer = (buffer, interpreter)) ∧
    (interpreter.isLoaded = true → 0 < buffer.channels →
      let outcome := (interpreter.run .block).runSamples buffer.frames
      let played := interpreter.runBlock buffer
      played.2 = outcome.2 ∧
        (interpreter.hasSection .sample = true ∨ Audio.RoundsBack →
          buffer.Holds outcome.1 played.1) ∧
        (interpreter.hasSection .sample = false →
          outcome.1 = buffer.frames ∧ played.1 = buffer)) := by
  obtain ⟨context, installed, cpu⟩ := interpreter
  cases installed with
  | none => exact ⟨fun _ => rfl, fun loaded => nomatch loaded⟩
  | some installed =>
    refine ⟨fun idle => ?_, fun _ audible => ?_⟩
    · have silent : buffer.channels = 0 := idle.resolve_left (by simp [isLoaded])
      simp [runBlock, silent]
    · intro outcome played
      have channels : (buffer.channels == 0) = false := by
        rw [beq_eq_false_iff_ne]
        exact Nat.ne_of_gt audible
      by_cases present : (installed.script.body? .sample).isSome = true
      · have inTurn := Installed.inTurn_fold (installed.run .block context) cpu present room audible
          buffer.samples (Nat.le_refl _)
        rw [← installed.runFrames_eq_fold] at inTurn
        have ran : played = ((installed.runFrames buffer.samples (installed.run .block context)
            buffer).2, ⟨(installed.runFrames buffer.samples (installed.run .block context)
              buffer).1, installed, cpu⟩) := by
          simp only [played, runBlock, channels, Bool.false_eq_true, if_false, present, if_true]
        rw [ran]
        refine ⟨inTurn.last_eq.symm, fun _ => ?_, fun absent => ?_⟩
        · exact inTurn.maps.holds room audible inTurn.length_eq
        · exact absurd absent (by simp [hasSection, body?, present])
      · have absent : (Interpreter.mk context (some installed) cpu).hasSection .sample = false := by
          simpa [hasSection, body?] using present
        have stillAbsent := (hasSection_run ⟨context, installed, cpu⟩ .block .sample).trans absent
        have ran : played = (buffer, run ⟨context, installed, cpu⟩ .block) := by
          simp [played, runBlock, channels, present, run]
        have replies : outcome = (buffer.frames, _) := runSamples_of_absent stillAbsent _
        rw [ran, replies]
        refine ⟨rfl, fun holds => ?_, fun _ => ⟨rfl, rfl⟩⟩
        exact room.holds_frames audible (holds.resolve_left (by simp [absent]))

/-- A script whose block section sets what its sample section uses, and whose right side is the
left side of the frame before. -/
def delaySource : String :=
  "@block level = 0.5;\n@sample spl1 = held; held = spl0; spl0 *= level;\n"

/-- Three channels of two frames. -/
theorem runBlock_eq_runSamples_delay :
    let buffer := Audio.Buffer.ofChannels [#[1.0, 2.0], #[3.0, 4.0], #[5.0, 6.0]]
    buffer.HasRoom ∧ 0 < buffer.channels ∧ ∃ interpreter : Interpreter,
      interpreter.isLoaded = true ∧ interpreter.hasSection .block = true ∧
        interpreter.hasSection .sample = true ∧
        let outcome := (interpreter.run .block).runSamples buffer.frames
        let played := interpreter.runBlock buffer
        played.2 = outcome.2 ∧ buffer.Holds outcome.1 played.1 := by
  intro buffer
  have room : buffer.HasRoom := by
    rw [Audio.Buffer.HasRoom]
    decide +kernel
  have audible : 0 < buffer.channels := by decide +kernel
  have accepted : (Script.compile delaySource).value.toOption.any (fun script =>
      (script.body? .block).isSome && (script.body? .sample).isSome) = true := by
    decide +kernel
  cases compiled : (Script.compile delaySource).value with
  | error cause =>
    rw [compiled] at accepted
    contradiction
  | ok script =>
    rw [compiled] at accepted
    obtain ⟨block, sample⟩ := Bool.and_eq_true_iff.1 accepted
    obtain ⟨context, bindings, installed, -, -⟩ := fresh.install_resolves script
    have loaded : (fresh.install script).value.isLoaded = true := by
      rw [installed]
      rfl
    have sections (kind : SectionKind) :
        (fresh.install script).value.hasSection kind = (script.body? kind).isSome := by
      rw [installed]
      rfl
    have present := (sections .sample).trans sample
    obtain ⟨same, holds, -⟩ := (runBlock_eq_runSamples _ room).2 loaded audible
    exact ⟨room, audible, _, loaded, (sections .block).trans block, present, same,
      holds (.inl present)⟩

end Interpreter

end EffectScript
