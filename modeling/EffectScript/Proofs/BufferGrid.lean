import EffectScript.Audio.Buffer

/-!
# Buffers as matrices

A buffer stands for a matrix with a row for each channel.  This file gives the matrix of a buffer
and shows how the steps from which all operations are built act on it: a function applied to a
stretch of one channel, or of several, changes the entries of that stretch and no others.  All that
is needed of the storage is that it has room for the matrix behind the place where the first channel
begins.
-/

namespace EffectScript.Audio

/-! ### Matrices of samples -/

/-- A matrix of samples with a row for each channel. -/
structure Grid where
  channels : Nat
  samples : Nat
  entry : Fin channels → Fin samples → Float32

namespace Grid

/-- One entry, zero outside the matrix. -/
def get (grid : Grid) (channel index : Nat) : Float32 :=
  if inside : channel < grid.channels ∧ index < grid.samples then
    grid.entry ⟨channel, inside.1⟩ ⟨index, inside.2⟩
  else 0.0

/-- The matrix of zeros. -/
def zeros (channels samples : Nat) : Grid := ⟨channels, samples, fun _ _ => 0.0⟩

/-- Replace every entry by a function of its channel, its index and its value. -/
def mapEntries (grid : Grid) (change : Nat → Nat → Float32 → Float32) : Grid where
  channels := grid.channels
  samples := grid.samples
  entry channel index := change channel index (grid.entry channel index)

@[simp]
theorem channels_mapEntries (grid : Grid) (change : Nat → Nat → Float32 → Float32) :
    (grid.mapEntries change).channels = grid.channels := rfl

@[simp]
theorem samples_mapEntries (grid : Grid) (change : Nat → Nat → Float32 → Float32) :
    (grid.mapEntries change).samples = grid.samples := rfl

@[simp]
theorem get_zeros (channels samples channel index : Nat) :
    (zeros channels samples).get channel index = 0.0 := by
  unfold get
  split <;> rfl

/-- Matrices of one shape with the same entries are equal. -/
theorem ext_get {first second : Grid} (channels : first.channels = second.channels)
    (samples : first.samples = second.samples)
    (entries : ∀ channel < first.channels, ∀ index < first.samples,
      first.get channel index = second.get channel index) : first = second := by
  obtain ⟨channelCount, sampleCount, entry⟩ := first
  obtain ⟨_, _, other⟩ := second
  obtain rfl := channels
  obtain rfl := samples
  congr
  funext channel index
  simpa [get] using entries channel channel.isLt index index.isLt

theorem get_mapEntries (grid : Grid) (change : Nat → Nat → Float32 → Float32) {channel index : Nat}
    (inChannels : channel < grid.channels) (inSamples : index < grid.samples) :
    (grid.mapEntries change).get channel index = change channel index (grid.get channel index) := by
  simp [get, mapEntries, inChannels, inSamples]

end Grid

namespace Buffer

/-- The matrix that a buffer stands for. -/
def grid (buffer : Buffer) : Grid where
  channels := buffer.channels
  samples := buffer.samples
  entry channel index := buffer.sample channel index

@[simp]
theorem channels_grid (buffer : Buffer) : buffer.grid.channels = buffer.channels := rfl

@[simp]
theorem samples_grid (buffer : Buffer) : buffer.grid.samples = buffer.samples := rfl

theorem get_grid (buffer : Buffer) {channel index : Nat} (inChannels : channel < buffer.channels)
    (inSamples : index < buffer.samples) :
    buffer.grid.get channel index = buffer.sample channel index := by
  simp [Grid.get, grid, inChannels, inSamples]

/-! ### Places -/

/-- The place of a sample. -/
def place (buffer : Buffer) (channel index : Nat) : Nat :=
  buffer.offset + channel * buffer.samples + index

/-- The storage has a place for every sample. -/
def HasRoom (buffer : Buffer) : Prop :=
  buffer.offset + buffer.channels * buffer.samples ≤ buffer.data.size

theorem sample_eq (buffer : Buffer) (channel index : Nat) :
    buffer.sample channel index = buffer.data[buffer.place channel index]?.getD 0.0 := rfl

/-- In storage that holds nothing but zeros every sample is zero. -/
theorem sample_of_zeros {buffer : Buffer} {size : Nat}
    (zeros : buffer.data = Array.replicate size 0.0) (channel index : Nat) :
    buffer.sample channel index = 0.0 := by
  rw [buffer.sample_eq, zeros, Array.getElem?_replicate]
  split <;> rfl

theorem succ_mul_samples_le (buffer : Buffer) {channel : Nat}
    (inChannels : channel < buffer.channels) :
    channel * buffer.samples + buffer.samples ≤ buffer.channels * buffer.samples := by
  rw [← Nat.succ_mul]
  exact Nat.mul_le_mul_right _ inChannels

theorem HasRoom.place_lt {buffer : Buffer} (room : buffer.HasRoom) {channel index : Nat}
    (inChannels : channel < buffer.channels) (inSamples : index < buffer.samples) :
    buffer.place channel index < buffer.data.size := by
  have inside := buffer.succ_mul_samples_le inChannels
  unfold HasRoom at room
  unfold place
  omega

/-- A place in a stretch of one channel is a place of that channel. -/
theorem place_mem_iff (buffer : Buffer) (channel other : Nat) {index start length : Nat}
    (inSamples : index < buffer.samples) (fits : start + length ≤ buffer.samples) :
    buffer.offset + channel * buffer.samples + start ≤ buffer.place other index ∧
        buffer.place other index < buffer.offset + channel * buffer.samples + start + length ↔
      other = channel ∧ start ≤ index ∧ index < start + length := by
  unfold place
  rcases Nat.lt_trichotomy other channel with before | rfl | behind
  · have apart := Nat.mul_le_mul_right buffer.samples (Nat.succ_le_of_lt before)
    rw [Nat.succ_mul] at apart
    omega
  · omega
  · have apart := Nat.mul_le_mul_right buffer.samples (Nat.succ_le_of_lt behind)
    rw [Nat.succ_mul] at apart
    omega

/-! ### Changes of entries -/

/-- A buffer came from another by changing the entries of its matrix, and nothing of its layout. -/
structure Maps (before after : Buffer) (change : Nat → Nat → Float32 → Float32) : Prop where
  offset_eq : after.offset = before.offset
  channels_eq : after.channels = before.channels
  samples_eq : after.samples = before.samples
  size_eq : after.data.size = before.data.size
  sample_eq {channel index : Nat} : channel < before.channels → index < before.samples →
    after.sample channel index = change channel index (before.sample channel index)

namespace Maps

variable {before between after : Buffer} {change later : Nat → Nat → Float32 → Float32}

theorem refl (buffer : Buffer) : Maps buffer buffer fun _ _ old => old :=
  ⟨rfl, rfl, rfl, rfl, fun _ _ => rfl⟩

theorem trans (first : Maps before between change) (second : Maps between after later) :
    Maps before after fun channel index old => later channel index (change channel index old) where
  offset_eq := second.offset_eq.trans first.offset_eq
  channels_eq := second.channels_eq.trans first.channels_eq
  samples_eq := second.samples_eq.trans first.samples_eq
  size_eq := second.size_eq.trans first.size_eq
  sample_eq inChannels inSamples := by
    rw [second.sample_eq (first.channels_eq ▸ inChannels) (first.samples_eq ▸ inSamples),
      first.sample_eq inChannels inSamples]

/-- Only what a change does to entries of the matrix counts. -/
theorem congr (maps : Maps before after change)
    (same : ∀ channel < before.channels, ∀ index < before.samples,
      change channel index (before.sample channel index) =
        later channel index (before.sample channel index)) :
    Maps before after later :=
  ⟨maps.offset_eq, maps.channels_eq, maps.samples_eq, maps.size_eq,
    fun inChannels inSamples =>
      (maps.sample_eq inChannels inSamples).trans (same _ inChannels _ inSamples)⟩

theorem hasRoom (maps : Maps before after change) (room : before.HasRoom) : after.HasRoom := by
  rw [HasRoom, maps.offset_eq, maps.channels_eq, maps.samples_eq, maps.size_eq]
  exact room

theorem grid_eq (maps : Maps before after change) : after.grid = before.grid.mapEntries change := by
  refine Grid.ext_get maps.channels_eq maps.samples_eq fun channel inChannels index inSamples => ?_
  rw [get_grid _ inChannels inSamples]
  rw [channels_grid, maps.channels_eq] at inChannels
  rw [samples_grid, maps.samples_eq] at inSamples
  rw [Grid.get_mapEntries _ _ inChannels inSamples, get_grid _ inChannels inSamples,
    maps.sample_eq inChannels inSamples]

end Maps

/-! ### Stretches -/

theorem size_modifyStretch (data : Array Float32) (stretch : Stretch)
    (change : Nat → Float32 → Float32) : (modifyStretch data stretch change).size = data.size := by
  obtain ⟨start, length⟩ := stretch
  unfold modifyStretch
  dsimp only
  induction length with
  | zero => rfl
  | succ length ih => rw [Nat.fold_succ, Array.size_modify, ih]

/-- The elements of the stretch change, and no others. -/
theorem getElem?_modifyStretch (data : Array Float32) (stretch : Stretch)
    (change : Nat → Float32 → Float32) (place : Nat) :
    (modifyStretch data stretch change)[place]? =
      if stretch.start ≤ place ∧ place < stretch.start + stretch.length then
        data[place]?.map (change (place - stretch.start))
      else data[place]? := by
  obtain ⟨start, length⟩ := stretch
  unfold modifyStretch
  dsimp only
  induction length with
  | zero => rw [Nat.fold_zero, if_neg (by omega)]
  | succ length ih =>
    rw [Nat.fold_succ, Array.getElem?_modify, ih]
    by_cases last : start + length = place
    · subst last
      rw [if_pos rfl, if_neg (by omega), if_pos (by omega), Nat.add_sub_cancel_left]
    · have inside : start ≤ place ∧ place < start + (length + 1) ↔
          start ≤ place ∧ place < start + length := by omega
      rw [if_neg last]
      simp only [inside]

variable {buffer : Buffer}

/-- Changing a stretch of one channel changes the entries of that stretch. -/
theorem HasRoom.maps_modifyChannel (room : buffer.HasRoom) (channel : Nat) {stretch : Stretch}
    (fits : stretch.start + stretch.length ≤ buffer.samples) (change : Nat → Float32 → Float32) :
    Maps buffer (buffer.modifyChannel channel stretch change) fun other index old =>
      if other = channel ∧ stretch.start ≤ index ∧ index < stretch.start + stretch.length then
        change (index - stretch.start) old
      else old where
  offset_eq := rfl
  channels_eq := rfl
  samples_eq := rfl
  size_eq := size_modifyStretch _ _ _
  sample_eq {other index} inChannels inSamples := by
    have bound := room.place_lt inChannels inSamples
    have value := getElem?_modifyStretch buffer.data
      ⟨buffer.offset + channel * buffer.samples + stretch.start, stretch.length⟩ change
      (buffer.place other index)
    have sampleEq : (buffer.modifyChannel channel stretch change).sample other index =
        (modifyStretch buffer.data
          ⟨buffer.offset + channel * buffer.samples + stretch.start, stretch.length⟩
          change)[buffer.place other index]?.getD 0.0 := rfl
    rw [sampleEq, value, buffer.sample_eq]
    simp only [buffer.place_mem_iff channel other inSamples fits]
    split
    · rename_i inside
      obtain ⟨rfl, _, _⟩ := inside
      have position : buffer.place other index -
          (buffer.offset + other * buffer.samples + stretch.start) = index - stretch.start := by
        unfold place
        omega
      rw [position, Array.getElem?_eq_getElem bound]
      rfl
    · rfl

/-- Changing a stretch of the first channels changes the entries of that stretch on them. -/
theorem HasRoom.maps_modifyChannels (room : buffer.HasRoom) (count : Nat) {stretch : Stretch}
    (fits : stretch.start + stretch.length ≤ buffer.samples)
    (change : Nat → Nat → Float32 → Float32) :
    Maps buffer (buffer.modifyChannels count stretch change) fun channel index old =>
      if channel < count ∧ stretch.start ≤ index ∧ index < stretch.start + stretch.length then
        change channel (index - stretch.start) old
      else old := by
  unfold modifyChannels
  induction count with
  | zero => exact (Maps.refl buffer).congr fun _ _ _ _ => by simp
  | succ count ih =>
    rw [Nat.fold_succ]
    have last := (ih.hasRoom room).maps_modifyChannel count (ih.samples_eq ▸ fits) (change count)
    refine (ih.trans last).congr fun channel _ index _ => ?_
    by_cases newest : channel = count
    · subst newest
      simp
    · have order : channel < count + 1 ↔ channel < count := by omega
      simp [newest, order]

/-- Setting one sample changes one entry. -/
theorem HasRoom.maps_setSample (room : buffer.HasRoom) {channel index : Nat}
    (inSamples : index < buffer.samples) (value : Float32) :
    Maps buffer (buffer.setSample channel index value) fun other position old =>
      if other = channel ∧ position = index then value else old where
  offset_eq := rfl
  channels_eq := rfl
  samples_eq := rfl
  size_eq := Array.size_setIfInBounds
  sample_eq {other position} inChannels inPositions := by
    have bound := room.place_lt inChannels inPositions
    have fits : index + 1 ≤ buffer.samples := inSamples
    have here := buffer.place_mem_iff channel other inPositions fits
    have sampleEq : (buffer.setSample channel index value).sample other position =
        (buffer.data.setIfInBounds (buffer.place channel index)
          value)[buffer.place other position]?.getD 0.0 := rfl
    rw [sampleEq, Array.getElem?_setIfInBounds, buffer.sample_eq]
    by_cases same : other = channel ∧ position = index
    · obtain ⟨rfl, rfl⟩ := same
      simp [bound]
    · have apart : buffer.place channel index ≠ buffer.place other position := by
        unfold place at here ⊢
        omega
      rw [if_neg apart, if_neg same]

end Buffer

end EffectScript.Audio
