import EffectScript.Effect
import EffectScript.Proofs.BufferEdits
import EffectScript.Proofs.Requests

/-!
# Blocks are processed as matrices

What an effect does with a block depends on the matrix that the buffer stands for, not on where in
the storage its channels begin.  Two buffers with the same matrix lead an effect to the same state,
and to buffers with the same matrix again.
-/

namespace EffectScript

open Machine

/-! ### Buffers with the same matrix -/

namespace Audio.Buffer

/-- Two buffers stand for the same matrix of a given shape. -/
structure Alike (channels samples : Nat) (first second : Buffer) : Prop where
  room : first.HasRoom
  otherRoom : second.HasRoom
  channels_eq : first.channels = channels
  samples_eq : first.samples = samples
  grid_eq : first.grid = second.grid

namespace Alike

variable {channels samples : Nat} {first second : Buffer}
  (alike : Alike channels samples first second)
include alike

theorem otherChannels_eq : second.channels = channels :=
  (congrArg Grid.channels alike.grid_eq).symm.trans alike.channels_eq

theorem otherSamples_eq : second.samples = samples :=
  (congrArg Grid.samples alike.grid_eq).symm.trans alike.samples_eq

theorem sample_eq {channel index : Nat} (inChannels : channel < channels)
    (inSamples : index < samples) : first.sample channel index = second.sample channel index := by
  rw [← first.get_grid (alike.channels_eq ▸ inChannels) (alike.samples_eq ▸ inSamples),
    ← second.get_grid (alike.otherChannels_eq ▸ inChannels) (alike.otherSamples_eq ▸ inSamples),
    alike.grid_eq]

theorem setSample (channel : Nat) {index : Nat} (inSamples : index < samples) (value : Float32) :
    Alike channels samples (first.setSample channel index value)
      (second.setSample channel index value) := by
  have maps : first.Maps (first.setSample channel index value) _ :=
    alike.room.maps_setSample (alike.samples_eq ▸ inSamples) value
  have other : second.Maps (second.setSample channel index value) _ :=
    alike.otherRoom.maps_setSample (alike.otherSamples_eq ▸ inSamples) value
  exact ⟨maps.hasRoom alike.room, other.hasRoom alike.otherRoom,
    maps.channels_eq.trans alike.channels_eq, maps.samples_eq.trans alike.samples_eq,
    by rw [maps.grid_eq, other.grid_eq, alike.grid_eq]⟩

end Alike

end Audio.Buffer

open Audio.Buffer (Alike)

/-! ### Frames -/

namespace Machine.Installed

variable (installed : Installed) {channels samples : Nat}

/-- A context with a block, and the same context with a block that stands for the same matrix. -/
def BlocksAlike (channels samples : Nat) (state other : Context × Audio.Buffer) : Prop :=
  state.1 = other.1 ∧ Alike channels samples state.2 other.2

theorem blocksAlike_runStereoFrame (pair : 2 ≤ channels) {index : Nat} (inside : index < samples)
    {state other : Context × Audio.Buffer} (alike : BlocksAlike channels samples state other) :
    BlocksAlike channels samples (installed.runStereoFrame index state.1 state.2)
      (installed.runStereoFrame index other.1 other.2) := by
  obtain ⟨same, blocks⟩ := alike
  have left : state.2.sample 0 index = other.2.sample 0 index :=
    blocks.sample_eq (by omega) inside
  have right : state.2.sample 1 index = other.2.sample 1 index :=
    blocks.sample_eq (by omega) inside
  simp only [runStereoFrame, left, right, same]
  exact ⟨rfl, (blocks.setSample 0 inside _).setSample 1 inside _⟩

theorem blocksAlike_runMonoFrame (some : 0 < channels) {index : Nat} (inside : index < samples)
    {state other : Context × Audio.Buffer} (alike : BlocksAlike channels samples state other) :
    BlocksAlike channels samples (installed.runMonoFrame index state.1 state.2)
      (installed.runMonoFrame index other.1 other.2) := by
  obtain ⟨same, blocks⟩ := alike
  simp only [runMonoFrame, blocks.sample_eq some inside, same]
  exact ⟨rfl, blocks.setSample 0 inside _⟩

/-- The frames of two buffers with the same matrix run alike. -/
theorem blocksAlike_runFrames (some : 0 < channels) (context : Context)
    {first second : Audio.Buffer} (alike : Alike channels samples first second) :
    BlocksAlike channels samples (installed.runFrames samples context first)
      (installed.runFrames samples context second) := by
  have start : BlocksAlike channels samples (context, first) (context, second) := ⟨rfl, alike⟩
  unfold runFrames
  rw [alike.channels_eq, alike.otherChannels_eq]
  split
  · rename_i pair
    exact fold_related (BlocksAlike channels samples)
      (fun _ inside _ _ => installed.blocksAlike_runStereoFrame pair inside) start
  · exact fold_related (BlocksAlike channels samples)
      (fun _ inside _ _ => installed.blocksAlike_runMonoFrame some inside) start

end Machine.Installed

/-! ### Blocks -/

variable {channels samples : Nat} {first second : Audio.Buffer}

theorem Interpreter.runBlock_alike (interpreter : Interpreter)
    (alike : Alike channels samples first second) :
    Alike channels samples (interpreter.runBlock first).1 (interpreter.runBlock second).1 ∧
      (interpreter.runBlock first).2 = (interpreter.runBlock second).2 := by
  obtain ⟨context, installed, cpu⟩ := interpreter
  cases installed with
  | none => exact ⟨alike, rfl⟩
  | some installed =>
    dsimp only [runBlock]
    rw [alike.channels_eq, alike.otherChannels_eq, alike.samples_eq, alike.otherSamples_eq]
    split
    · exact ⟨alike, rfl⟩
    · rename_i nonempty
      split
      · have some : 0 < channels := Nat.pos_of_ne_zero (by simpa using nonempty)
        obtain ⟨same, blocks⟩ :=
          installed.blocksAlike_runFrames some (installed.run .block context) alike
        exact ⟨blocks, by rw [same]⟩
      · exact ⟨alike, rfl⟩

/-- An effect processes buffers with the same matrix alike. -/
theorem Effect.processBlock_alike (effect : Effect) (alike : Alike channels samples first second) :
    Alike channels samples (effect.processBlock first).1 (effect.processBlock second).1 ∧
      (effect.processBlock first).2 = (effect.processBlock second).2 := by
  unfold processBlock
  dsimp only
  split
  · obtain ⟨blocks, same⟩ :=
      effect.receiveScript.beginCall.interpreter.runBlock_alike alike
    exact ⟨blocks, by simp only [runInterpreter, same]⟩
  · exact ⟨alike, rfl⟩

end EffectScript
