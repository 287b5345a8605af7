import EffectScript.Machine.Context
import EffectScript.Number.Extrema

/-!
# Audio buffers

A buffer holds a number of channels of equally many samples, one channel after the other, in one
array with a few spare places.  Where in the array the first channel begins is up to whoever
allocates it; no operation depends on it, and `channel?` is the view through which a buffer is a
matrix of samples.
-/

namespace EffectScript.Audio

/-- Places in an allocation beyond those of the samples. -/
def sparePlaces : Nat := 4

/-- A block of samples on several channels. -/
structure Buffer where
  data : Array Float32
  /-- Place of the first sample of the first channel. -/
  offset : Nat
  channels : Nat
  /-- Number of samples on each channel. -/
  samples : Nat
  sampleRate : Float

/-- A run of places: the first one and their number. -/
structure Stretch where
  start : Nat
  length : Nat
  deriving DecidableEq, Repr

/-- Apply a function to the elements of a stretch; it is given the position in the stretch. -/
def modifyStretch (data : Array Float32) (stretch : Stretch) (change : Nat → Float32 → Float32) :
    Array Float32 :=
  Nat.fold stretch.length
    (fun i _ data => data.modify (stretch.start + i) (change i)) data

namespace Buffer

/-- A buffer without channels. -/
def empty : Buffer := ⟨#[], 0, 0, 0, Machine.standardRate⟩

/-- Change the shape and zero all samples; the first channel begins `lead` places into the
allocation, if there are that many to spare.  Nothing happens if the shape stays the same. -/
def resizeFrom (lead : Nat) (buffer : Buffer) (channels samples : Nat) : Buffer :=
  if channels == buffer.channels && samples == buffer.samples then buffer
  else
    let total := channels * samples
    if total == 0 then ⟨#[], 0, channels, samples, buffer.sampleRate⟩
    else
      { data := Array.replicate (total + sparePlaces) 0.0
        offset := if lead ≤ sparePlaces then lead else 0
        channels
        samples
        sampleRate := buffer.sampleRate }

/-- Change the shape and zero all samples, unless the shape stays the same. -/
def resize (buffer : Buffer) (channels samples : Nat) : Buffer :=
  buffer.resizeFrom 0 channels samples

/-- A buffer of zeros. -/
def zeros (channels samples : Nat) : Buffer :=
  empty.resize channels samples

/-- Whether the buffer holds no samples. -/
def isEmpty (buffer : Buffer) : Bool :=
  buffer.channels == 0 || buffer.samples == 0

/-- The places of a channel. -/
def channelStretch (buffer : Buffer) (channel : Nat) : Stretch :=
  ⟨buffer.offset + channel * buffer.samples, buffer.samples⟩

/-- The samples of a channel, whether or not it exists. -/
def channelSamples (buffer : Buffer) (channel : Nat) : Array Float32 :=
  let stretch := buffer.channelStretch channel
  buffer.data.extract stretch.start (stretch.start + stretch.length)

/-- The samples of a channel. -/
def channel? (buffer : Buffer) (channel : Nat) : Option (Array Float32) :=
  if channel < buffer.channels then some (buffer.channelSamples channel) else none

/-- All channels in order. -/
def matrix (buffer : Buffer) : List (Array Float32) :=
  (List.range buffer.channels).map buffer.channelSamples

/-- One sample, zero if it does not exist. -/
def sample (buffer : Buffer) (channel index : Nat) : Float32 :=
  buffer.data[buffer.offset + channel * buffer.samples + index]?.getD 0.0

/-- Set one sample. -/
def setSample (buffer : Buffer) (channel index : Nat) (value : Float32) : Buffer :=
  match buffer with
  | ⟨data, offset, channels, samples, sampleRate⟩ =>
    ⟨data.setIfInBounds (offset + channel * samples + index) value, offset, channels, samples,
      sampleRate⟩

/-- Whether two channels can be used together: both exist and they differ. -/
def isPair (buffer : Buffer) (first second : Nat) : Bool :=
  first != second && first < buffer.channels && second < buffer.channels

/-- Apply a function to a stretch of samples on one channel. -/
def modifyChannel (buffer : Buffer) (channel : Nat) (stretch : Stretch)
    (change : Nat → Float32 → Float32) : Buffer :=
  match buffer with
  | ⟨data, offset, channels, samples, sampleRate⟩ =>
    let places : Stretch := ⟨offset + channel * samples + stretch.start, stretch.length⟩
    ⟨modifyStretch data places change, offset, channels, samples, sampleRate⟩

/-- Apply a function to the same stretch of samples on the first channels; it is given the channel
and the position in the stretch. -/
def modifyChannels (buffer : Buffer) (count : Nat) (stretch : Stretch)
    (change : Nat → Nat → Float32 → Float32) : Buffer :=
  Nat.fold count (fun channel _ buffer => buffer.modifyChannel channel stretch (change channel))
    buffer

/-- The part of a stretch of samples that exists; none if it starts behind the end. -/
def clamp? (buffer : Buffer) (start length : Nat) : Option Stretch :=
  if buffer.samples ≤ start then none
  else some ⟨start, min length (buffer.samples - start)⟩

/-- All samples of a channel. -/
def wholeChannel (buffer : Buffer) : Stretch := ⟨0, buffer.samples⟩

/-! ### Clearing and gain -/

/-- Zero all samples. -/
def clear (buffer : Buffer) : Buffer :=
  { buffer with data := Array.replicate buffer.data.size 0.0 }

/-- Zero a stretch on every channel. -/
def clearRange (buffer : Buffer) (start length : Nat) : Buffer :=
  match buffer.clamp? start length with
  | none => buffer
  | some stretch => buffer.modifyChannels buffer.channels stretch fun _ _ _ => 0.0

/-- Multiply a stretch on every channel. -/
def gainRange (buffer : Buffer) (gain : Float32) (start length : Nat) : Buffer :=
  if gain == 1.0 then buffer
  else
    match buffer.clamp? start length with
    | none => buffer
    | some stretch => buffer.modifyChannels buffer.channels stretch fun _ _ old => old * gain

/-- Multiply all samples. -/
def gain (buffer : Buffer) (gain : Float32) : Buffer :=
  buffer.gainRange gain 0 buffer.samples

/-- Increase of a ramp from one sample to the next. -/
def rampStep (first last : Float32) (length : Nat) : Float32 :=
  if 1 < length then (last - first) / Float32.ofNat (length - 1) else 0.0

/-- Multiply a stretch on every channel by a gain that goes evenly from the first sample's to the
last one's. -/
def rampRange (buffer : Buffer) (first last : Float32) (start length : Nat) : Buffer :=
  match buffer.clamp? start length with
  | none => buffer
  | some stretch =>
    let step := rampStep first last stretch.length
    buffer.modifyChannels buffer.channels stretch fun _ i old =>
      old * (first + step * Float32.ofNat i)

/-- Multiply all samples by an even ramp. -/
def ramp (buffer : Buffer) (first last : Float32) : Buffer :=
  buffer.rampRange first last 0 buffer.samples

/-! ### Mixing and copying -/

/-- The stretches of two buffers that correspond to each other, of equal length. -/
def overlap? (buffer source : Buffer) (sourceStart start length : Nat) :
    Option (Stretch × Stretch) :=
  match source.clamp? sourceStart length, buffer.clamp? start length with
  | some theirs, some ours =>
    let common := min theirs.length ours.length
    some (⟨theirs.start, common⟩, ⟨ours.start, common⟩)
  | _, _ => none

/-- Combine corresponding samples on the channels that both buffers have; the function is given our
sample and theirs. -/
def combineRange (buffer source : Buffer) (sourceStart start length : Nat)
    (combine : Float32 → Float32 → Float32) : Buffer :=
  match buffer.overlap? source sourceStart start length with
  | none => buffer
  | some (theirs, ours) =>
    buffer.modifyChannels (min buffer.channels source.channels) ours fun channel i old =>
      combine old (source.sample channel (theirs.start + i))

/-- Add a stretch of another buffer, scaled. -/
def mixRange (buffer source : Buffer) (sourceStart start length : Nat) (gain : Float32) : Buffer :=
  buffer.combineRange source sourceStart start length fun old new => old + new * gain

/-- Add a stretch of another buffer. -/
def addRange (buffer source : Buffer) (sourceStart start length : Nat) : Buffer :=
  buffer.mixRange source sourceStart start length 1.0

/-- Add another buffer, scaled, as far as it overlaps. -/
def addScaled (buffer source : Buffer) (gain : Float32) : Buffer :=
  buffer.mixRange source 0 0 (max buffer.samples source.samples) gain

/-- Add another buffer as far as it overlaps. -/
def add (buffer source : Buffer) : Buffer :=
  buffer.addScaled source 1.0

/-- Copy a stretch of another buffer. -/
def copyRange (buffer source : Buffer) (sourceStart start length : Nat) : Buffer :=
  buffer.combineRange source sourceStart start length fun _ new => new

/-- Zero a channel, if it exists. -/
def clearChannel (buffer : Buffer) (channel : Nat) : Buffer :=
  if channel < buffer.channels then
    buffer.modifyChannel channel buffer.wholeChannel fun _ _ => 0.0
  else buffer

/-- Zero the channels from one on. -/
def clearChannelsFrom (buffer : Buffer) (first : Nat) : Buffer :=
  Nat.fold (buffer.channels - first) (fun i _ buffer => buffer.clearChannel (first + i)) buffer

/-- Copy another buffer as far as it overlaps, and zero the channels that it lacks. -/
def copy (buffer source : Buffer) : Buffer :=
  (buffer.copyRange source 0 0 (max buffer.samples source.samples)).clearChannelsFrom
    source.channels

/-- Copy one channel to another. -/
def copyChannel (buffer : Buffer) (source target : Nat) : Buffer :=
  if buffer.isPair source target then
    let samples := buffer.channelSamples source
    buffer.modifyChannel target buffer.wholeChannel fun i old => samples[i]?.getD old
  else buffer

/-- Multiply the samples of a channel, if it exists. -/
def channelGain (buffer : Buffer) (channel : Nat) (gain : Float32) : Buffer :=
  if gain == 1.0 || buffer.channels ≤ channel then buffer
  else buffer.modifyChannel channel buffer.wholeChannel fun _ old => old * gain

/-- Write values to a channel from its start on, as far as they fit. -/
def fillChannel (buffer : Buffer) (channel : Nat) (values : Array Float32) : Buffer :=
  if channel < buffer.channels then
    buffer.modifyChannel channel buffer.wholeChannel fun i old => values[i]?.getD old
  else buffer

/-- Write values to the channels from one on. -/
def fillChannels (buffer : Buffer) (channel : Nat) : List (Array Float32) → Buffer
  | [] => buffer
  | values :: rest => (buffer.fillChannel channel values).fillChannels (channel + 1) rest

/-- The buffer with given channels, as many samples as the first of them has. -/
def ofChannels (channels : List (Array Float32)) : Buffer :=
  let samples :=
    match channels with
    | [] => 0
    | first :: _ => first.size
  (zeros channels.length samples).fillChannels 0 channels

/-- A copy with storage of its own. -/
def duplicate (buffer : Buffer) : Buffer :=
  let copied := (zeros buffer.channels buffer.samples).copy buffer
  { copied with sampleRate := buffer.sampleRate }

/-! ### Levels -/

/-- The selected channels: one of them, or all. -/
def selected (buffer : Buffer) : Option Nat → List Nat
  | none => List.range buffer.channels
  | some channel => if channel < buffer.channels then [channel] else []

/-- The samples of the selected channels, channel by channel. -/
def selectedSamples (buffer : Buffer) (channel : Option Nat) : List Float32 :=
  (buffer.selected channel).flatMap fun channel => (buffer.channelSamples channel).toList

/-- Root of the mean square over the selected channels. -/
def rms (buffer : Buffer) (channel : Option Nat) : Float32 :=
  let count := (buffer.selected channel).length * buffer.samples
  if count == 0 then 0.0
  else
    let sum := (buffer.selectedSamples channel).foldl
      (fun sum sample => sum + sample.toFloat * sample.toFloat) 0.0
    (sum / Float.ofNat count).sqrt.toFloat32

/-- Largest magnitude on the selected channels. -/
def peak (buffer : Buffer) (channel : Option Nat) : Float32 :=
  (buffer.selectedSamples channel).foldl
    (fun peak sample => Number.greatestSingle peak sample.abs) 0.0

/-- Smallest and largest sample on the selected channels, zeros if there is none. -/
def extremes (buffer : Buffer) (channel : Option Nat) : Float32 × Float32 :=
  match buffer.selectedSamples channel with
  | [] => (0.0, 0.0)
  | first :: rest =>
    rest.foldl
      (fun found sample =>
        (Number.leastSingle found.1 sample, Number.greatestSingle found.2 sample))
      (first, first)

end Buffer

end EffectScript.Audio
