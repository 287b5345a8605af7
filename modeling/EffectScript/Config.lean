import EffectScript.Json.Skip
import EffectScript.Json.Write

/-!
# Settings

The settings of a host, and their JSON form.  Reading takes an object, in which unknown keys are
passed over and missing ones keep their standard values, or an array of the settings in order.  The
first fault from left to right decides the outcome.
-/

namespace EffectScript

/-- Settings of a host. -/
structure Config where
  sampleRate : Float
  /-- Largest block that the host passes in one call. -/
  maxBlockSize : Nat
  channels : Nat
  /-- Most buffers that a pool keeps. -/
  poolCapacity : Nat

namespace Config

open Json

/-- The settings that hold unless others are given. -/
def standard : Config := ⟨48000.0, 512, 2, 32⟩

/-- The JSON form of settings. -/
def json (config : Config) : Value :=
  .object
    [("sampleRate", .float config.sampleRate), ("maxBlockSize", .natural config.maxBlockSize),
     ("channels", .natural config.channels), ("poolCapacity", .natural config.poolCapacity)]

/-- The settings by name. -/
inductive Field where
  | sampleRate
  | maxBlockSize
  | channels
  | poolCapacity
  deriving DecidableEq, Repr

/-- All settings, in the order of the array form. -/
def Field.all : List Field := [sampleRate, maxBlockSize, channels, poolCapacity]

/-- The key of a setting. -/
def Field.key : Field → String
  | sampleRate => "sampleRate"
  | maxBlockSize => "maxBlockSize"
  | channels => "channels"
  | poolCapacity => "poolCapacity"

/-- The setting with a key. -/
def Field.ofKey? (key : String) : Option Field :=
  all.find? fun field => field.key == key

/-- Refuse the value in front, which is not of the wanted kind: it is read, brackets aside, and its
own faults come first. -/
def refuseValue {α : Type} (first : Char) : Scan α := do
  if first == '"' then
    Scan.skip
    let _ ← Scan.string
  else if first == '-' then
    Scan.skip
    let _ ← Scan.numeric false
  else if Number.isDigit first then
    let _ ← Scan.numeric true
  else
    let _ ← Scan.skipScalar first
  throw .unsuitable

/-- Read a number. -/
def readNumeric : Scan Numeric := do
  match ← Scan.peekPart? with
  | none => throw .truncated
  | some first =>
    if first == '-' then
      Scan.skip
      Scan.numeric false
    else if Number.isDigit first then Scan.numeric true
    else refuseValue first

/-- Read a rate. -/
def readRate : Scan Float := do
  match ← readNumeric with
  | .natural number => return nearestFloat number
  | .negative number => return -nearestFloat number
  | .float number => return number

/-- Read a size. -/
def readSize : Scan Nat := do
  match ← readNumeric with
  | .natural number => return number
  | _ => throw .unsuitable

/-- Read one setting. -/
def readField (config : Config) : Field → Scan Config
  | .sampleRate => return { config with sampleRate := ← readRate }
  | .maxBlockSize => return { config with maxBlockSize := ← readSize }
  | .channels => return { config with channels := ← readSize }
  | .poolCapacity => return { config with poolCapacity := ← readSize }

/-- Read the member at its key, unless its setting is already known. -/
def readMember (config : Config) (known : List Field) : Scan (Config × List Field) := do
  Scan.skip
  let key ← Scan.string
  match Field.ofKey? (String.ofList key) with
  | some field =>
    if known.contains field then throw .unsuitable
    Scan.mark ':'
    return (← readField config field, field :: known)
  | none =>
    Scan.mark ':'
    Scan.skipValue
    return (config, known)

/-- Read members up to the closing brace; `first` tells whether none was read.  There is one round
for each character of the allowance, which is the text at the start: each round reads one or more,
so the text is used up when the allowance is. -/
def readMembers (config : Config) (known : List Field) (first : Bool) : List Char → Scan Config
  | [] => throw .truncated
  | _ :: allowance => do
    match ← Scan.peekPart? with
    | none => throw .truncated
    | some c =>
      if c == '\x7d' then
        Scan.skip
        return config
      if c == ',' && !first then
        Scan.skip
        if (← Scan.peekPart?).isNone then throw .truncated
      else if !first then throw .malformed
      if (← Scan.peek?) == some '"' then
        let (config, known) ← readMember config known
        readMembers config known false allowance
      else throw .malformed

/-- Read the settings of an array in order; it may end early, but not go on. -/
def readElements (config : Config) (first : Bool) : List Field → Scan Config
  | [] => do
    match ← Scan.peekPart? with
    | none => throw .truncated
    | some c =>
      if c == ']' then
        Scan.skip
        return config
      else throw .malformed
  | field :: rest => do
    match ← Scan.peekPart? with
    | none => throw .truncated
    | some c =>
      if c == ']' then
        Scan.skip
        return config
      if c == ',' && !first then
        Scan.skip
        match ← Scan.peekPart? with
        | none => throw .truncated
        | some c => if c == ']' then throw .malformed
      else if !first then throw .malformed
      readElements (← readField config field) false rest

/-- Read settings and the end of the text. -/
def read : Scan Config := do
  let config ←
    match ← Scan.peekPart? with
    | none => throw .truncated
    | some '\x7b' =>
      Scan.skip
      readMembers standard [] true (← get)
    | some '[' =>
      Scan.skip
      readElements standard true Field.all
    | some first => refuseValue first
  match ← Scan.peekPart? with
  | none => return config
  | some _ => throw .malformed

/-- The settings that a text holds. -/
def ofJson (text : String) : Except Fault Config := do
  let (config, _) ← read text.toList
  return config

end Config

end EffectScript
