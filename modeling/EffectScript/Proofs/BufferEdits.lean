import EffectScript.Proofs.BufferGrid

/-!
# Operations on buffers act pointwise

Every operation that keeps the shape of a buffer changes each entry of its matrix by a rule of its
own, which `Edit.entry` states; a change of shape gives zeros, and a copy gives the same matrix.
This holds for every buffer that operations can produce, wherever in its storage the first channel
begins, and no operation ever asks for a place outside the storage.
-/

namespace EffectScript.Audio

namespace Buffer

variable {buffer source : Buffer}

/-! ### Ranges -/

theorem clamp?_some {start length : Nat} {stretch : Stretch}
    (clamped : buffer.clamp? start length = some stretch) :
    start < buffer.samples ∧ stretch = ⟨start, min length (buffer.samples - start)⟩ := by
  unfold clamp? at clamped
  split at clamped
  · contradiction
  · rename_i inside
    exact ⟨Nat.lt_of_not_le inside, (Option.some.inj clamped).symm⟩

theorem clamp?_none {start length : Nat} (outside : buffer.clamp? start length = none) :
    buffer.samples ≤ start := by
  unfold clamp? at outside
  split at outside
  · assumption
  · contradiction

/-- Changing the part of a range that exists changes the entries of the range. -/
theorem HasRoom.maps_clamped (room : buffer.HasRoom) (start length : Nat)
    (change : Nat → Nat → Float32 → Float32) :
    Maps buffer
      (match buffer.clamp? start length with
        | none => buffer
        | some stretch =>
          buffer.modifyChannels buffer.channels stretch fun _ => change stretch.length)
      fun _ index old =>
        if start ≤ index ∧ index < min (start + length) buffer.samples then
          change (min (start + length) buffer.samples - start) (index - start) old
        else old := by
  split
  · rename_i outside
    have behind := clamp?_none outside
    refine (Maps.refl buffer).congr fun channel _ index inSamples => ?_
    rw [if_neg (by omega)]
  · rename_i stretch clamped
    obtain ⟨inside, rfl⟩ := clamp?_some clamped
    have fits : start + min length (buffer.samples - start) ≤ buffer.samples := by omega
    have count : min length (buffer.samples - start) =
        min (start + length) buffer.samples - start := by omega
    refine (room.maps_modifyChannels buffer.channels fits _).congr
      fun channel inChannels index inSamples => ?_
    have range : channel < buffer.channels ∧ start ≤ index ∧
        index < start + (min (start + length) buffer.samples - start) ↔
          start ≤ index ∧ index < min (start + length) buffer.samples := by omega
    simp only [count, range]

/-- Stretches that correspond to each other have one length and lie inside their buffers. -/
theorem overlap?_some {sourceStart start length : Nat} {theirs ours : Stretch}
    (overlap : buffer.overlap? source sourceStart start length = some (theirs, ours)) :
    sourceStart < source.samples ∧ start < buffer.samples ∧
      theirs = ⟨sourceStart,
        min (min length (source.samples - sourceStart)) (min length (buffer.samples - start))⟩ ∧
      ours = ⟨start,
        min (min length (source.samples - sourceStart)) (min length (buffer.samples - start))⟩ := by
  unfold overlap? at overlap
  split at overlap
  · rename_i first second clampedTheirs clampedOurs
    obtain ⟨insideTheirs, rfl⟩ := clamp?_some clampedTheirs
    obtain ⟨insideOurs, rfl⟩ := clamp?_some clampedOurs
    obtain ⟨rfl, rfl⟩ := Prod.mk.inj (Option.some.inj overlap)
    exact ⟨insideTheirs, insideOurs, rfl, rfl⟩
  · contradiction

theorem overlap?_none {sourceStart start length : Nat}
    (apart : buffer.overlap? source sourceStart start length = none) :
    source.samples ≤ sourceStart ∨ buffer.samples ≤ start := by
  unfold overlap? at apart
  split at apart
  · contradiction
  · rename_i missing
    cases theirs : source.clamp? sourceStart length with
    | none => exact .inl (clamp?_none theirs)
    | some stretch =>
      cases ours : buffer.clamp? start length with
      | none => exact .inr (clamp?_none ours)
      | some other => exact absurd ours (missing stretch other theirs)

/-- Combining corresponding samples changes the entries of the range that both buffers have. -/
theorem HasRoom.maps_combineRange (room : buffer.HasRoom) (source : Buffer)
    (sourceStart start length : Nat) (combine : Float32 → Float32 → Float32) :
    Maps buffer (buffer.combineRange source sourceStart start length combine)
      fun channel index old =>
        if channel < source.channels ∧ start ≤ index ∧
            index < start + min length (min (source.samples - sourceStart)
              (buffer.samples - start)) then
          combine old (source.grid.get channel (sourceStart + (index - start)))
        else old := by
  unfold combineRange
  split
  · rename_i apart
    have outside := overlap?_none apart
    refine (Maps.refl buffer).congr fun channel _ index inSamples => ?_
    rw [if_neg (by omega)]
  · rename_i theirs ours overlap
    obtain ⟨insideTheirs, insideOurs, rfl, rfl⟩ := overlap?_some overlap
    have fits : start + min (min length (source.samples - sourceStart))
        (min length (buffer.samples - start)) ≤ buffer.samples := by omega
    refine (room.maps_modifyChannels _ fits _).congr fun channel inChannels index inSamples => ?_
    by_cases range : channel < source.channels ∧ start ≤ index ∧
        index < start + min length (min (source.samples - sourceStart) (buffer.samples - start))
    · have position : sourceStart + (index - start) < source.samples := by omega
      rw [if_pos range, if_pos (by simp only; omega), source.get_grid range.1 position]
    · rw [if_neg range, if_neg (by simp only; omega)]

/-! ### Single channels -/

/-- Changing all of a channel changes the entries of the channel. -/
theorem HasRoom.maps_wholeChannel (room : buffer.HasRoom) (channel : Nat)
    (change : Nat → Float32 → Float32) :
    Maps buffer (buffer.modifyChannel channel buffer.wholeChannel change) fun other index old =>
      if other = channel then change index old else old := by
  have fits : buffer.wholeChannel.start + buffer.wholeChannel.length ≤ buffer.samples :=
    Nat.le_of_eq (Nat.zero_add _)
  refine (room.maps_modifyChannel channel fits change).congr fun other _ index inSamples => ?_
  simp [wholeChannel, inSamples]

/-- The same if the change is made only where the channel exists. -/
theorem HasRoom.maps_channel (room : buffer.HasRoom) (channel : Nat)
    (change : Nat → Float32 → Float32) :
    Maps buffer
      (if channel < buffer.channels then
        buffer.modifyChannel channel buffer.wholeChannel change
      else buffer)
      fun other index old => if other = channel then change index old else old := by
  split
  · exact room.maps_wholeChannel channel change
  · refine (Maps.refl buffer).congr fun other inChannels index _ => ?_
    rw [if_neg (by omega)]

theorem HasRoom.maps_fillChannel (room : buffer.HasRoom) (channel : Nat)
    (values : Array Float32) :
    Maps buffer (buffer.fillChannel channel values) fun other index old =>
      if other = channel then values[index]?.getD old else old :=
  room.maps_channel channel fun index old => values[index]?.getD old

theorem HasRoom.maps_clearChannelsFrom (room : buffer.HasRoom) (first : Nat) :
    Maps buffer (buffer.clearChannelsFrom first) fun channel _ old =>
      if first ≤ channel then 0.0 else old := by
  have cleared (count : Nat) :
      Maps buffer
        (Nat.fold count (fun i _ buffer => buffer.clearChannel (first + i)) buffer)
        fun channel _ old => if first ≤ channel ∧ channel < first + count then 0.0 else old := by
    induction count with
    | zero =>
      refine (Maps.refl buffer).congr fun channel _ index _ => ?_
      rw [if_neg (by omega)]
    | succ count ih =>
      rw [Nat.fold_succ]
      refine (ih.trans ((ih.hasRoom room).maps_channel (first + count) fun _ _ => 0.0)).congr
        fun channel _ index _ => ?_
      by_cases last : channel = first + count
      · rw [if_pos last, if_pos (by omega)]
      · have order : channel < first + (count + 1) ↔ channel < first + count := by omega
        simp only [if_neg last]
        grind
  refine (cleared (buffer.channels - first)).congr fun channel inChannels index _ => ?_
  have range : first ≤ channel ∧ channel < first + (buffer.channels - first) ↔ first ≤ channel := by
    omega
  simp only [range]

/-! ### Rows -/

end Buffer

/-- The samples of a channel. -/
def Grid.row (grid : Grid) (channel : Nat) : Array Float32 :=
  Array.ofFn fun index : Fin grid.samples => grid.get channel index

theorem Grid.get_eq_of_row_eq {grid other : Grid} {channel index : Nat}
    (same : grid.row channel = other.row channel) (inSamples : index < grid.samples)
    (inOther : index < other.samples) : grid.get channel index = other.get channel index := by
  have element : (grid.row channel)[index]? = (other.row channel)[index]? := by rw [same]
  simpa [Grid.row, inSamples, inOther] using element

namespace Buffer

variable {buffer source : Buffer}

theorem HasRoom.channelSamples_eq (room : buffer.HasRoom) {channel : Nat}
    (inChannels : channel < buffer.channels) :
    buffer.channelSamples channel = buffer.grid.row channel := by
  have inside := buffer.succ_mul_samples_le inChannels
  unfold HasRoom at room
  refine Array.ext ?_ fun index first second => ?_
  · simp [channelSamples, channelStretch, Grid.row]
    omega
  · have inSamples : index < buffer.samples := by simpa [Grid.row] using second
    have bound : buffer.offset + channel * buffer.samples + index < buffer.data.size := by omega
    simp [channelSamples, channelStretch, Grid.row, buffer.get_grid inChannels inSamples, sample,
      bound]

/-- The channels are the rows of the matrix. -/
theorem HasRoom.channel?_eq (room : buffer.HasRoom) (channel : Nat) :
    buffer.channel? channel =
      if channel < buffer.channels then some (buffer.grid.row channel) else none := by
  unfold channel?
  split
  · rename_i inChannels
    rw [room.channelSamples_eq inChannels]
  · rfl

theorem HasRoom.matrix_eq (room : buffer.HasRoom) :
    buffer.matrix = (List.range buffer.channels).map buffer.grid.row :=
  List.map_congr_left fun _ member => room.channelSamples_eq (List.mem_range.mp member)

/-- Buffers of one shape that show the same channels stand for the same matrix. -/
theorem HasRoom.grid_eq_of_matrix_eq (room : buffer.HasRoom) (sourceRoom : source.HasRoom)
    (channels : buffer.channels = source.channels) (samples : buffer.samples = source.samples)
    (same : buffer.matrix = source.matrix) : buffer.grid = source.grid := by
  rw [room.matrix_eq, sourceRoom.matrix_eq, channels, List.map_inj_left] at same
  refine Grid.ext_get channels samples fun channel inChannels index inSamples => ?_
  have inSource : channel < source.channels := Nat.lt_of_lt_of_eq inChannels channels
  exact Grid.get_eq_of_row_eq (same channel (List.mem_range.mpr inSource)) inSamples
    (Nat.lt_of_lt_of_eq inSamples samples)

/-- Levels are taken over rows of the matrix. -/
theorem HasRoom.selectedSamples_eq (room : buffer.HasRoom) (channel : Option Nat) :
    buffer.selectedSamples channel =
      (buffer.selected channel).flatMap fun channel => (buffer.grid.row channel).toList := by
  rw [selectedSamples, List.flatMap_def, List.flatMap_def]
  refine congrArg List.flatten (List.map_congr_left fun selected member => ?_)
  have inChannels : selected < buffer.channels := by
    cases channel with
    | none => simpa [Buffer.selected] using member
    | some channel =>
      by_cases found : channel < buffer.channels
      · obtain rfl : selected = channel := by simpa [Buffer.selected, found] using member
        exact found
      · simp [Buffer.selected, found] at member
  rw [room.channelSamples_eq inChannels]

end Buffer

/-! ### Operations that keep the shape -/

/-- The operations that keep the shape of a buffer. -/
inductive Edit where
  | setRate (rate : Float)
  | clear
  | clearRange (start length : Nat)
  | gain (factor : Float32)
  | gainRange (factor : Float32) (start length : Nat)
  | ramp (first last : Float32)
  | rampRange (first last : Float32) (start length : Nat)
  | add (source : Buffer)
  | addScaled (source : Buffer) (factor : Float32)
  | addRange (source : Buffer) (sourceStart start length : Nat)
  | copy (source : Buffer)
  | copyRange (source : Buffer) (sourceStart start length : Nat)
  | copyChannel (source target : Nat)
  | clearChannel (target : Nat)
  | channelGain (target : Nat) (factor : Float32)
  /-- Write to a channel from its start on. -/
  | fill (target : Nat) (values : Array Float32)
  /-- Write to two channels at once, if both exist and differ. -/
  | fillPair (first second : Nat) (values others : Array Float32)

namespace Edit

/-- The buffer from which an operation reads. -/
def source? : Edit → Option Buffer
  | .add source | .addScaled source _ | .addRange source _ _ _ | .copy source
  | .copyRange source _ _ _ => some source
  | _ => none

/-- The buffer after an operation. -/
def apply (buffer : Buffer) : Edit → Buffer
  | .setRate rate => { buffer with sampleRate := rate }
  | .clear => buffer.clear
  | .clearRange start length => buffer.clearRange start length
  | .gain factor => buffer.gain factor
  | .gainRange factor start length => buffer.gainRange factor start length
  | .ramp first last => buffer.ramp first last
  | .rampRange first last start length => buffer.rampRange first last start length
  | .add source => buffer.add source
  | .addScaled source factor => buffer.addScaled source factor
  | .addRange source sourceStart start length => buffer.addRange source sourceStart start length
  | .copy source => buffer.copy source
  | .copyRange source sourceStart start length => buffer.copyRange source sourceStart start length
  | .copyChannel source target => buffer.copyChannel source target
  | .clearChannel target => buffer.clearChannel target
  | .channelGain target factor => buffer.channelGain target factor
  | .fill target values => buffer.fillChannel target values
  | .fillPair first second values others =>
    if buffer.isPair first second then
      (buffer.fillChannel first values).fillChannel second others
    else buffer

/-- A gain that goes evenly from one value to another over `count` samples. -/
def rampAt (first last : Float32) (count position : Nat) : Float32 :=
  let delta := if 1 < count then (last - first) / Float32.ofNat (count - 1) else 0.0
  first + delta * Float32.ofNat position

/-- The entry that an operation on a matrix leaves where it finds `old`. -/
def entry (grid : Grid) (channel index : Nat) (old : Float32) : Edit → Float32
  | .setRate _ => old
  | .clear => 0.0
  | .clearRange start length =>
    if start ≤ index ∧ index < min (start + length) grid.samples then 0.0 else old
  | .gain factor => if factor == 1.0 then old else old * factor
  | .gainRange factor start length =>
    if start ≤ index ∧ index < min (start + length) grid.samples then
      if factor == 1.0 then old else old * factor
    else old
  | .ramp first last => old * rampAt first last grid.samples index
  | .rampRange first last start length =>
    if start ≤ index ∧ index < min (start + length) grid.samples then
      old * rampAt first last (min (start + length) grid.samples - start) (index - start)
    else old
  | .add source =>
    if channel < source.channels ∧ index < source.samples then
      old + source.grid.get channel index * 1.0
    else old
  | .addScaled source factor =>
    if channel < source.channels ∧ index < source.samples then
      old + source.grid.get channel index * factor
    else old
  | .addRange source sourceStart start length =>
    let count := min length (min (source.samples - sourceStart) (grid.samples - start))
    if channel < source.channels ∧ start ≤ index ∧ index < start + count then
      old + source.grid.get channel (sourceStart + (index - start)) * 1.0
    else old
  | .copy source =>
    if channel < source.channels then
      if index < source.samples then source.grid.get channel index else old
    else 0.0
  | .copyRange source sourceStart start length =>
    let count := min length (min (source.samples - sourceStart) (grid.samples - start))
    if channel < source.channels ∧ start ≤ index ∧ index < start + count then
      source.grid.get channel (sourceStart + (index - start))
    else old
  | .copyChannel source target =>
    if source < grid.channels ∧ channel = target then grid.get source index else old
  | .clearChannel target => if channel = target then 0.0 else old
  | .channelGain target factor =>
    if channel = target then if factor == 1.0 then old else old * factor else old
  | .fill target values => if channel = target then values[index]?.getD old else old
  | .fillPair first second values others =>
    if first ≠ second ∧ first < grid.channels ∧ second < grid.channels then
      if channel = first then values[index]?.getD old
      else if channel = second then others[index]?.getD old
      else old
    else old

variable {buffer : Buffer}

theorem maps_clear : buffer.Maps buffer.clear fun _ _ _ => 0.0 :=
  ⟨rfl, rfl, rfl, Array.size_replicate, fun _ _ => Buffer.sample_of_zeros rfl _ _⟩

variable (room : buffer.HasRoom)
include room

theorem maps_gainRange (factor : Float32) (start length : Nat) :
    buffer.Maps (buffer.gainRange factor start length) fun _ index old =>
      if start ≤ index ∧ index < min (start + length) buffer.samples then
        if factor == 1.0 then old else old * factor
      else old := by
  unfold Buffer.gainRange
  by_cases unit : (factor == 1.0) = true
  · simp only [unit, if_true, ite_self]
    exact .refl buffer
  · simp only [unit, Bool.false_eq_true, if_false]
    exact room.maps_clamped start length fun _ _ old => old * factor

theorem maps_rampRange (first last : Float32) (start length : Nat) :
    buffer.Maps (buffer.rampRange first last start length) fun _ index old =>
      if start ≤ index ∧ index < min (start + length) buffer.samples then
        old * rampAt first last (min (start + length) buffer.samples - start) (index - start)
      else old :=
  room.maps_clamped start length fun count position old => old * rampAt first last count position

/-- Combining whole buffers changes the entries that both have. -/
theorem maps_combineWhole (source : Buffer) (combine : Float32 → Float32 → Float32) :
    buffer.Maps (buffer.combineRange source 0 0 (max buffer.samples source.samples) combine)
      fun channel index old =>
        if channel < source.channels ∧ index < source.samples then
          combine old (source.grid.get channel index)
        else old := by
  refine (room.maps_combineRange source 0 0 _ combine).congr fun channel _ index inSamples => ?_
  have range : channel < source.channels ∧ 0 ≤ index ∧
      index < min (max buffer.samples source.samples) (min source.samples buffer.samples) ↔
        channel < source.channels ∧ index < source.samples := by omega
  simp only [Nat.sub_zero, Nat.zero_add, range]

theorem maps_copy (source : Buffer) :
    buffer.Maps (buffer.copy source) fun channel index old =>
      if channel < source.channels then
        if index < source.samples then source.grid.get channel index else old
      else 0.0 := by
  have copied := maps_combineWhole room source fun _ new => new
  refine (copied.trans ((copied.hasRoom room).maps_clearChannelsFrom source.channels)).congr
    fun channel _ index _ => ?_
  by_cases theirs : channel < source.channels
  · simp [theirs, Nat.not_le_of_lt theirs]
  · simp [theirs, Nat.le_of_not_lt theirs]

theorem maps_copyChannel (source target : Nat) :
    buffer.Maps (buffer.copyChannel source target) fun channel index old =>
      if source < buffer.channels ∧ channel = target then buffer.sample source index else old := by
  unfold Buffer.copyChannel
  dsimp only
  split
  · rename_i pair
    simp only [Buffer.isPair, bne_iff_ne, ne_eq, Bool.and_eq_true, decide_eq_true_eq] at pair
    obtain ⟨⟨_, inChannels⟩, _⟩ := pair
    refine (room.maps_wholeChannel target _).congr fun channel _ index inSamples => ?_
    rw [room.channelSamples_eq inChannels]
    simp [inChannels, Grid.row, inSamples, buffer.get_grid inChannels inSamples]
  · rename_i pair
    refine (Buffer.Maps.refl buffer).congr fun channel inChannels index _ => ?_
    -- The pair fails with the copied channel in place only if the two channels are the same.
    by_cases copied : source < buffer.channels ∧ channel = target
    · obtain ⟨inside, rfl⟩ := copied
      obtain rfl : source = channel := by
        simpa [Buffer.isPair, inside, inChannels] using pair
      simp [inside]
    · rw [if_neg copied]

theorem maps_channelGain (target : Nat) (factor : Float32) :
    buffer.Maps (buffer.channelGain target factor) fun channel _ old =>
      if channel = target then if factor == 1.0 then old else old * factor else old := by
  unfold Buffer.channelGain
  by_cases unit : (factor == 1.0) = true
  · simp only [unit, Bool.true_or, if_true, ite_self]
    exact .refl buffer
  · have only : (buffer.channels ≤ target) ↔ ¬target < buffer.channels := by omega
    simp only [unit, Bool.false_or, decide_eq_true_eq, only, ite_not, Bool.false_eq_true, if_false]
    exact room.maps_channel target fun _ old => old * factor

theorem maps_fillPair (first second : Nat) (values others : Array Float32) :
    buffer.Maps
      (if buffer.isPair first second then
        (buffer.fillChannel first values).fillChannel second others
      else buffer)
      fun channel index old =>
        if first ≠ second ∧ first < buffer.channels ∧ second < buffer.channels then
          if channel = first then values[index]?.getD old
          else if channel = second then others[index]?.getD old
          else old
        else old := by
  have pair : buffer.isPair first second = true ↔
      first ≠ second ∧ first < buffer.channels ∧ second < buffer.channels := by
    simp [Buffer.isPair, and_assoc]
  simp only [pair]
  split
  · rename_i distinct
    have one := room.maps_fillChannel first values
    have other := (one.hasRoom room).maps_fillChannel second others
    refine (one.trans other).congr fun channel _ index _ => ?_
    by_cases here : channel = first
    · simp [here, distinct.1]
    · simp [here]
  · exact .refl buffer

/-- Every operation changes the entries of the matrix by its own rule. -/
theorem maps_apply (edit : Edit) :
    buffer.Maps (edit.apply buffer) fun channel index old =>
      edit.entry buffer.grid channel index old := by
  cases edit with
  | setRate rate => exact ⟨rfl, rfl, rfl, rfl, fun _ _ => rfl⟩
  | clear => exact maps_clear
  | clearRange start length => exact room.maps_clamped start length fun _ _ _ => 0.0
  | gain factor =>
    refine (maps_gainRange room factor 0 buffer.samples).congr fun channel _ index inSamples => ?_
    simp [entry, inSamples]
  | gainRange factor start length => exact maps_gainRange room factor start length
  | ramp first last =>
    refine (maps_rampRange room first last 0 buffer.samples).congr
      fun channel _ index inSamples => ?_
    simp [entry, inSamples]
  | rampRange first last start length => exact maps_rampRange room first last start length
  | add source => exact maps_combineWhole room source fun old new => old + new * 1.0
  | addScaled source factor => exact maps_combineWhole room source fun old new => old + new * factor
  | addRange source sourceStart start length =>
    exact room.maps_combineRange source sourceStart start length fun old new => old + new * 1.0
  | copy source => exact maps_copy room source
  | copyRange source sourceStart start length =>
    exact room.maps_combineRange source sourceStart start length fun _ new => new
  | copyChannel source target =>
    refine (maps_copyChannel room source target).congr fun channel _ index inSamples => ?_
    by_cases copied : source < buffer.channels ∧ channel = target
    · simp [entry, copied, buffer.get_grid copied.1 inSamples]
    · simp [entry, copied]
  | clearChannel target => exact room.maps_channel target fun _ _ => 0.0
  | channelGain target factor => exact maps_channelGain room target factor
  | fill target values => exact room.maps_fillChannel target values
  | fillPair first second values others => exact maps_fillPair room first second values others

end Edit

/-! ### Changes of shape and copies -/

namespace Buffer

variable {buffer source : Buffer}

/-- A change of shape gives zeros; the same shape gives the same matrix. -/
theorem grid_resizeFrom (buffer : Buffer) (lead channels samples : Nat) :
    (buffer.resizeFrom lead channels samples).grid =
      if channels = buffer.channels ∧ samples = buffer.samples then buffer.grid
      else .zeros channels samples := by
  unfold resizeFrom
  simp only [Bool.and_eq_true, beq_iff_eq]
  split
  · rfl
  · split
    · refine Grid.ext_get rfl rfl fun channel inChannels index inSamples => ?_
      have some : 0 < channels * samples :=
        Nat.mul_pos (Nat.zero_lt_of_lt inChannels) (Nat.zero_lt_of_lt inSamples)
      omega
    · refine Grid.ext_get rfl rfl fun channel inChannels index inSamples => ?_
      rw [get_grid _ inChannels inSamples, Grid.get_zeros]
      exact sample_of_zeros rfl channel index

/-- A copy with storage of its own, whose first channel begins `lead` places into it. -/
def duplicateFrom (lead : Nat) (buffer : Buffer) : Buffer :=
  let copied := (empty.resizeFrom lead buffer.channels buffer.samples).copy buffer
  { copied with sampleRate := buffer.sampleRate }

theorem duplicate_eq (buffer : Buffer) : buffer.duplicate = buffer.duplicateFrom 0 := rfl

theorem shape_resizeFrom (buffer : Buffer) (lead channels samples : Nat) :
    (buffer.resizeFrom lead channels samples).channels = channels ∧
      (buffer.resizeFrom lead channels samples).samples = samples := by
  unfold resizeFrom
  simp only [Bool.and_eq_true, beq_iff_eq]
  split
  · rename_i same
    exact ⟨same.1.symm, same.2.symm⟩
  · split <;> exact ⟨rfl, rfl⟩

theorem HasRoom.resizeFrom (room : buffer.HasRoom) (lead channels samples : Nat) :
    (buffer.resizeFrom lead channels samples).HasRoom := by
  unfold Buffer.resizeFrom
  dsimp only
  split
  · exact room
  · split
    · rename_i none
      simpa [HasRoom] using none
    · simp only [HasRoom, Array.size_replicate]
      split <;> omega

theorem hasRoom_empty : empty.HasRoom := Nat.le_refl _

theorem hasRoom_zeros (channels samples : Nat) : (zeros channels samples).HasRoom :=
  hasRoom_empty.resizeFrom 0 channels samples

theorem maps_duplicateFrom (lead : Nat) (buffer : Buffer) :
    Maps (empty.resizeFrom lead buffer.channels buffer.samples) (buffer.duplicateFrom lead)
      fun channel index old =>
        if channel < buffer.channels then
          if index < buffer.samples then buffer.grid.get channel index else old
        else 0.0 := by
  have copied := Edit.maps_copy
    (hasRoom_empty.resizeFrom lead buffer.channels buffer.samples) buffer
  exact ⟨copied.offset_eq, copied.channels_eq, copied.samples_eq, copied.size_eq,
    copied.sample_eq⟩

/-- A copy stands for the same matrix. -/
theorem grid_duplicateFrom (lead : Nat) (buffer : Buffer) :
    (buffer.duplicateFrom lead).grid = buffer.grid := by
  obtain ⟨channels, samples⟩ := empty.shape_resizeFrom lead buffer.channels buffer.samples
  have maps := maps_duplicateFrom lead buffer
  refine Grid.ext_get (maps.channels_eq.trans channels) (maps.samples_eq.trans samples)
    fun channel inChannels index inSamples => ?_
  rw [get_grid _ inChannels inSamples]
  rw [channels_grid, maps.channels_eq] at inChannels
  rw [samples_grid, maps.samples_eq] at inSamples
  rw [maps.sample_eq inChannels inSamples, if_pos (channels ▸ inChannels),
    if_pos (samples ▸ inSamples)]

/-! ### Buffers that operations can produce -/

/-- A shape whose samples can be counted up to a limit, together with the spare places if there are
any samples at all. -/
def Fits (limit channels samples : Nat) : Prop :=
  channels ≤ limit ∧ samples ≤ limit ∧
    (channels * samples = 0 ∨ channels * samples + sparePlaces ≤ limit)

/-- The buffers that operations can produce, if every shape they are given fits. -/
inductive Reachable (limit : Nat) : Buffer → Prop
  | empty : Reachable limit .empty
  | resized {buffer : Buffer} (reachable : Reachable limit buffer) (lead : Nat)
      {channels samples : Nat} (fits : Fits limit channels samples) :
      Reachable limit (buffer.resizeFrom lead channels samples)
  | edited {buffer : Buffer} (reachable : Reachable limit buffer) {edit : Edit}
      (sources : ∀ source, edit.source? = some source → Reachable limit source) :
      Reachable limit (edit.apply buffer)
  | duplicated {buffer : Buffer} (reachable : Reachable limit buffer) (lead : Nat) :
      Reachable limit (buffer.duplicateFrom lead)

/-- The storage has room for the matrix behind the offset, and nothing is larger than the limit. -/
structure Sound (limit : Nat) (buffer : Buffer) : Prop where
  room : buffer.offset + buffer.channels * buffer.samples ≤ buffer.data.size
  size_le : buffer.data.size ≤ limit
  fits : Fits limit buffer.channels buffer.samples

theorem sound_empty (limit : Nat) : empty.Sound limit :=
  ⟨hasRoom_empty, Nat.zero_le _, Nat.zero_le _, Nat.zero_le _, .inl rfl⟩

theorem Sound.resizeFrom {limit : Nat} (sound : buffer.Sound limit) (lead : Nat)
    {channels samples : Nat} (fits : Fits limit channels samples) :
    (buffer.resizeFrom lead channels samples).Sound limit := by
  obtain ⟨sameChannels, sameSamples⟩ := buffer.shape_resizeFrom lead channels samples
  refine ⟨HasRoom.resizeFrom sound.room lead channels samples, ?_, ?_⟩
  · unfold Buffer.resizeFrom
    dsimp only
    split
    · exact sound.size_le
    · split
      · exact Nat.zero_le limit
      · rename_i some
        rw [Array.size_replicate]
        exact fits.2.2.resolve_left (by simpa using some)
  · rw [sameChannels, sameSamples]
    exact fits

theorem Maps.sound {limit : Nat} {after : Buffer} {change : Nat → Nat → Float32 → Float32}
    (maps : Maps buffer after change) (sound : buffer.Sound limit) : after.Sound limit where
  room := maps.hasRoom sound.room
  size_le := maps.size_eq ▸ sound.size_le
  fits := by
    rw [maps.channels_eq, maps.samples_eq]
    exact sound.fits

/-- What one operation preserves, every sequence of operations preserves. -/
theorem Reachable.sound {limit : Nat} (reachable : buffer.Reachable limit) :
    buffer.Sound limit := by
  induction reachable with
  | empty => exact sound_empty limit
  | resized _ lead fits ih => exact ih.resizeFrom lead fits
  | edited _ _ ih _ => exact (Edit.maps_apply ih.room _).sound ih
  | duplicated _ lead ih =>
    exact (maps_duplicateFrom lead _).sound ((sound_empty limit).resizeFrom lead ih.fits)

/-- No range that an operation computes from its arguments leaves the storage, or the channels of
which it is a part. -/
structure StaysInside (buffer : Buffer) : Prop where
  channel {channel : Nat} : channel < buffer.channels →
    buffer.offset ≤ (buffer.channelStretch channel).start ∧
      (buffer.channelStretch channel).start + (buffer.channelStretch channel).length ≤
        buffer.data.size
  channels_apart {first second : Nat} : first < second →
    (buffer.channelStretch first).start + (buffer.channelStretch first).length ≤
      (buffer.channelStretch second).start
  clamp {start length : Nat} {stretch : Stretch} : buffer.clamp? start length = some stretch →
    stretch.start + stretch.length ≤ buffer.samples
  overlap {source : Buffer} {sourceStart start length : Nat} {theirs ours : Stretch} :
    buffer.overlap? source sourceStart start length = some (theirs, ours) →
      theirs.length = ours.length ∧ theirs.start + theirs.length ≤ source.samples ∧
        ours.start + ours.length ≤ buffer.samples

theorem HasRoom.staysInside (room : buffer.HasRoom) : buffer.StaysInside where
  channel {channel} inChannels := by
    have inside := buffer.succ_mul_samples_le inChannels
    unfold HasRoom at room
    simp only [channelStretch]
    omega
  channels_apart {first second} order := by
    have apart := Nat.mul_le_mul_right buffer.samples (Nat.succ_le_of_lt order)
    rw [Nat.succ_mul] at apart
    simp only [channelStretch]
    omega
  clamp clamped := by
    obtain ⟨inside, rfl⟩ := clamp?_some clamped
    simp only
    omega
  overlap overlapping := by
    obtain ⟨insideTheirs, insideOurs, rfl, rfl⟩ := overlap?_some overlapping
    refine ⟨rfl, ?_, ?_⟩ <;> simp only <;> omega

/-- Buffers behave as matrices.  In every buffer that operations can produce from shapes that fit,
the storage has room for the matrix and no operation leaves it; channels and levels are read from
the rows of the matrix; every operation that keeps the shape changes each entry by its pointwise
rule, a change of shape gives zeros, and a copy gives the same matrix at the same rate. -/
theorem Reachable.behaves_as_matrix {limit : Nat} (reachable : buffer.Reachable limit) :
    buffer.Sound limit ∧ buffer.StaysInside ∧
    (∀ channel, buffer.channel? channel =
      if channel < buffer.channels then some (buffer.grid.row channel) else none) ∧
    (∀ channel, buffer.selectedSamples channel =
      (buffer.selected channel).flatMap fun channel => (buffer.grid.row channel).toList) ∧
    (∀ edit : Edit, (edit.apply buffer).grid =
      buffer.grid.mapEntries fun channel index old => edit.entry buffer.grid channel index old) ∧
    (∀ lead channels samples, (buffer.resizeFrom lead channels samples).grid =
      if channels = buffer.channels ∧ samples = buffer.samples then buffer.grid
      else .zeros channels samples) ∧
    (∀ lead, (buffer.duplicateFrom lead).grid = buffer.grid ∧
      (buffer.duplicateFrom lead).sampleRate = buffer.sampleRate) ∧
    buffer.duplicate = buffer.duplicateFrom 0 := by
  have sound := reachable.sound
  have room : buffer.HasRoom := sound.room
  exact ⟨sound, room.staysInside, room.channel?_eq, room.selectedSamples_eq,
    fun edit => (Edit.maps_apply room edit).grid_eq, buffer.grid_resizeFrom,
    fun lead => ⟨grid_duplicateFrom lead buffer, rfl⟩, buffer.duplicate_eq⟩

/-- A buffer of two channels whose first one begins three places into the storage. -/
theorem behaves_as_matrix_shifted :
    let buffer := (Edit.fillPair 1 0 #[4.0, 5.0, 6.0] #[1.0, 2.0, 3.0]).apply
      (empty.resizeFrom 3 2 3)
    let edit : Edit := .rampRange 0.0 1.0 1 (UInt64.size - 1)
    buffer.Reachable (UInt64.size - 1) ∧ buffer.offset = 3 ∧
      buffer.matrix = [#[1.0, 2.0, 3.0], #[4.0, 5.0, 6.0]] ∧
      (edit.apply buffer).matrix = [#[1.0, 0.0, 3.0], #[4.0, 0.0, 6.0]] ∧
      (edit.apply buffer).grid = buffer.grid.mapEntries fun channel index old =>
        edit.entry buffer.grid channel index old := by
  intro buffer edit
  have reachable : buffer.Reachable (UInt64.size - 1) :=
    (Reachable.empty.resized 3 (by unfold Fits; decide)).edited (by rintro _ ⟨⟩)
  obtain ⟨_, _, _, _, edits, _⟩ := reachable.behaves_as_matrix
  exact ⟨reachable, by decide +kernel, by decide +kernel, by decide +kernel, edits edit⟩

end Buffer

end EffectScript.Audio
