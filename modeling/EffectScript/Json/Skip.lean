import EffectScript.Json.Numeric

/-!
# Passing over JSON values

A value that nobody asked for is checked for its form and dropped.  The brackets that are open stand
on a stack, so values may nest to any depth.
-/

namespace EffectScript.Json

/-- An open bracket. -/
inductive Frame where
  | array
  | object
  deriving DecidableEq, Repr

/-- The bracket that closes a frame. -/
def Frame.closing : Frame → Char
  | array => ']'
  | object => '\x7d'

namespace Scan

/-- Read a part that must be the given mark. -/
def mark (wanted : Char) : Scan Unit := do
  match ← peekPart? with
  | none => throw .truncated
  | some c => if c == wanted then skip else throw .malformed

/-- Pass the key that must stand before a value in a frame. -/
def skipKey : Frame → Scan Unit
  | .array => return ()
  | .object => do
    mark '"'
    skipString
    mark ':'

/-- Pass a scalar at its first character; brackets are returned. -/
def skipScalar (first : Char) : Scan (Option Frame) := do
  if first == 'n' then
    word "null".toList
    return none
  else if first == 't' then
    word "true".toList
    return none
  else if first == 'f' then
    word "false".toList
    return none
  else if first == '"' then
    skip
    skipString
    return none
  else if first == '-' then
    skip
    skipNumeric
    return none
  else if Number.isDigit first then
    skipNumeric
    return none
  else if first == '[' then
    skip
    return some .array
  else if first == '\x7b' then
    skip
    return some .object
  else throw .malformed

/-- Pass a scalar or an opening bracket, which is returned. -/
def skipFront : Scan (Option Frame) := do
  match ← peekPart? with
  | none => throw .truncated
  | some first => skipScalar first

/-- Pass values until the stack of open brackets is empty; `opened` tells that the innermost bracket
was just opened.  There is one round for each character of the allowance, which is the text at the
start: each round passes one or more, so the text is used up when the allowance is. -/
def skipWithin : List Char → Bool → List Frame → Scan Unit
  | _, _, [] => return ()
  | [], _, _ :: _ => throw .truncated
  | _ :: allowance, opened, frame :: stack => do
    match ← peekPart? with
    | none => throw .truncated
    | some c =>
      if c == frame.closing then
        skip
        skipWithin allowance false stack
      else
        if !opened then
          if c == ',' then skip else throw .malformed
        skipKey frame
        match ← skipFront with
        | some inner => skipWithin allowance true (inner :: frame :: stack)
        | none => skipWithin allowance false (frame :: stack)

/-- Pass one value. -/
def skipValue : Scan Unit := do
  match ← skipFront with
  | some frame => skipWithin (← get) true [frame]
  | none => return ()

end Scan

end EffectScript.Json
