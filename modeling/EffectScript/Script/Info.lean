import EffectScript.Json.Write
import EffectScript.Script.Slider
import EffectScript.Text.Lines

/-!
# Script headers

Before the first line that begins with `@`, lines of the form `key:value` describe the script.  They
are blanked in the body, so that places in the body are places in the source.
-/

namespace EffectScript.Script

open EffectScript.Language

/-- What the header of a script declares. -/
structure Info where
  description : String
  author : String
  tags : List String
  inPins : List String
  outPins : List String
  /-- Declared sliders in increasing order. -/
  sliders : List Slider

namespace Info

/-- The header without lines. -/
def empty : Info := ⟨"", "", [], [], [], []⟩

/-- One past the last declared slider. -/
def parameterCount (info : Info) : Nat :=
  info.sliders.foldl (fun count slider => max count (slider.index + 1)) 0

/-- The declaration of a slider. -/
def slider? (info : Info) (index : Nat) : Option Slider :=
  info.sliders.find? fun slider => slider.index == index

/-- Initial values of the declared sliders. -/
def initialValues (info : Info) : List (Nat × Float) :=
  info.sliders.map fun slider => (slider.index, slider.initial)

end Info

/-- Insert a slider in order; an earlier declaration of the same slider is replaced. -/
def insertSlider (slider : Slider) : List Slider → List Slider
  | [] => [slider]
  | other :: rest =>
    if slider.index < other.index then slider :: other :: rest
    else if slider.index == other.index then slider :: rest
    else other :: insertSlider slider rest

/-- A character of a header key. -/
def isKeyPart (c : Char) : Bool :=
  isLetter c || Number.isDigit c || c == '_'

/-- Split a line of the form `key:value`; a key does not begin with a digit. -/
def splitKey? (line : List Char) : Option (List Char × List Char) :=
  let key := line.takeWhile isKeyPart
  match key.head?, line.dropWhile isKeyPart with
  | some first, ':' :: value => if Number.isDigit first then none else some (key, value)
  | _, _ => none

/-- The key of a slider declaration: `slider` and digits. -/
def isSliderKey (key : List Char) : Bool :=
  match dropSliderWord? key with
  | some digits => !digits.isEmpty && digits.all Number.isDigit
  | none => false

/-- Take one header line, unless it declares a pin, into the description of the script. -/
def Info.withLine (info : Info) (lineNumber : Nat) (line key value : List Char) :
    ExceptT HeaderError Logged Info :=
  let text := Text.trim value
  match String.ofList key with
  | "desc" => return { info with description := String.ofList text }
  | "author" => return { info with author := String.ofList text }
  | "tags" => return { info with tags := (Text.words text).map String.ofList }
  | "in_pin" => return info
  | "out_pin" => return info
  | name =>
    if isSliderKey key then do
      let slider ← ExceptT.mk (pure (Slider.ofLine lineNumber line))
      return { info with sliders := insertSlider slider info.sliders }
    else do
      ExceptT.lift (.note .debug s!"ignoring header key '{name}' on line {lineNumber}")
      return info

/-- Put the pin that a header line declares, if it does, in front of the pins of the lines below. -/
def Info.withPin (info : Info) (key value : List Char) : Info :=
  match String.ofList key with
  | "in_pin" => { info with inPins := String.ofList (Text.trim value) :: info.inPins }
  | "out_pin" => { info with outPins := String.ofList (Text.trim value) :: info.outPins }
  | _ => info

/-- The line feed that remains of a blanked line. -/
def lineFeedOf (line : List Char) : List Char :=
  if line.getLast? == some '\n' then ['\n'] else []

/-- Split lines into what they declare and the body that remains. -/
def readLines (info : Info) (lineNumber : Nat) :
    List (List Char) → ExceptT HeaderError Logged (Info × List Char)
  | [] => return (info, [])
  | line :: rest =>
    let trimmed := Text.trim line
    if trimmed.head? == some '@' then return (info, (line :: rest).flatten)
    else
      match splitKey? trimmed with
      | some (key, value) => do
        let info ← info.withLine lineNumber trimmed key value
        let (info, body) ← readLines info (lineNumber + 1) rest
        return (info.withPin key value, lineFeedOf line ++ body)
      | none => do
        let (info, body) ← readLines info (lineNumber + 1) rest
        return (info, line ++ body)

/-- Split a source into its header and the body. -/
def readHeader (source : String) : ExceptT HeaderError Logged (Info × String) := do
  let (info, body) ← readLines .empty 1 (Text.lines source.toList)
  ExceptT.lift (.note .debug
    (s!"header: '{info.description}', {info.sliders.length} slider(s), " ++
      s!"{info.inPins.length} in / {info.outPins.length} out pin(s)"))
  return (info, String.ofList body)

/-- The JSON value of a slider. -/
def Slider.json (slider : Slider) : Json.Value :=
  .object
    [("index", .natural slider.index), ("default", .float slider.initial),
     ("min", .float slider.least), ("max", .float slider.greatest), ("step", .float slider.step),
     ("label", .string slider.label), ("enumValues", .strings slider.valueNames)]

/-- The JSON value of a header. -/
def Info.json (info : Info) : Json.Value :=
  .object
    [("description", .string info.description), ("author", .string info.author),
     ("tags", .strings info.tags), ("inPins", .strings info.inPins),
     ("outPins", .strings info.outPins), ("sliders", .array (info.sliders.map Slider.json))]

end EffectScript.Script
