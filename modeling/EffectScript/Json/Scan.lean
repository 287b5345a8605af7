import EffectScript.Number.Decimal

/-!
# Scanning JSON

Scanning goes from left to right and stops at the first fault.  A fault is that the text is not
JSON, that it ends too early, or that a well-formed value is not of the wanted kind.
-/

namespace EffectScript.Json

/-- Why a text cannot be read. -/
inductive Fault where
  /-- The text is not JSON. -/
  | malformed
  /-- The text ends too early. -/
  | truncated
  /-- A value is well formed, but not of the wanted kind. -/
  | unsuitable
  deriving DecidableEq, Repr

/-- A step over the text that remains. -/
abbrev Scan := StateT (List Char) (Except Fault)

/-- A character that may stand between the parts of a text. -/
def isSpace (c : Char) : Bool :=
  c == ' ' || c == '\n' || c == '\t' || c == '\r'

namespace Scan

/-- The next character, which stays unread. -/
def peek? : Scan (Option Char) := do
  return (← get).head?

/-- Pass one character. -/
def skip : Scan Unit :=
  modify List.tail

/-- Pass the space in front; the next character stays unread. -/
def peekPart? : Scan (Option Char) := do
  modify (List.dropWhile isSpace)
  peek?

/-- Read one character. -/
def next : Scan Char := do
  match ← get with
  | [] => throw .truncated
  | c :: rest =>
    set rest
    return c

/-- Read the given characters. -/
def word : List Char → Scan Unit
  | [] => return ()
  | wanted :: rest => do
    if (← next) == wanted then word rest else throw .malformed

/-- Read a run of digits. -/
def digits : Scan (List Char) := do
  let text ← get
  set (text.dropWhile Number.isDigit)
  return text.takeWhile Number.isDigit

/-! ### Strings -/

/-- Value of a hexadecimal digit. -/
def hexDigit? (c : Char) : Option Nat :=
  if Number.isDigit c then some (c.toNat - '0'.toNat)
  else if 'a' ≤ c && c ≤ 'f' then some (c.toNat - 'a'.toNat + 10)
  else if 'A' ≤ c && c ≤ 'F' then some (c.toNat - 'A'.toNat + 10)
  else none

/-- Value of four hexadecimal digits. -/
def fourDigits? : List Char → Option Nat
  | [a, b, c, d] => do
    return 4096 * (← hexDigit? a) + 256 * (← hexDigit? b) + 16 * (← hexDigit? c) +
      (← hexDigit? d)
  | _ => none

/-- Number of bytes that a text takes. -/
def byteCount (text : List Char) : Nat :=
  (String.ofList text).utf8ByteSize

/-- Read the four digits of an escape; a text of fewer than four bytes ends too early. -/
def hexEscape : Scan Nat := do
  let text ← get
  match fourDigits? (text.take 4) with
  | some unit =>
    set (text.drop 4)
    return unit
  | none => if byteCount text < 4 then throw .truncated else throw .malformed

/-- The first unit of a surrogate pair. -/
def isLeading (unit : Nat) : Bool :=
  0xD800 ≤ unit && unit ≤ 0xDBFF

/-- The second unit of a surrogate pair. -/
def isTrailing (unit : Nat) : Bool :=
  0xDC00 ≤ unit && unit ≤ 0xDFFF

/-- Read an escaped code point behind `\u`; surrogates must come in pairs. -/
def codePoint : Scan Char := do
  let unit ← hexEscape
  if isTrailing unit then throw .malformed
  else if isLeading unit then
    word ['\\', 'u']
    let second ← hexEscape
    if isTrailing second then
      return Char.ofNat ((unit - 0xD800) * 1024 + (second - 0xDC00) + 0x10000)
    else throw .malformed
  else return Char.ofNat unit

/-- The character that a letter stands for behind a backslash. -/
def simpleEscape? (c : Char) : Option Char :=
  if c == '"' || c == '\\' || c == '/' then some c
  else if c == 'b' then some '\x08'
  else if c == 'f' then some '\x0c'
  else if c == 'n' then some '\n'
  else if c == 'r' then some '\r'
  else if c == 't' then some '\t'
  else none

/-- Read the rest of a string behind its opening quote; `unicode` reads what follows `\u`.  There is
one round for each character of the allowance, which is the text at the start: each round reads one
or more, so the text is used up when the allowance is. -/
def stringWithin {α : Type} (unicode : Scan α) (plain : Char → α) : List Char → Scan (List α)
  | [] => throw .truncated
  | _ :: allowance => do
    let c ← next
    if c == '"' then return []
    else if c.toNat < 0x20 then throw .malformed
    else if c == '\\' then
      let letter ← next
      if letter == 'u' then
        let first ← unicode
        return first :: (← stringWithin unicode plain allowance)
      else
        match simpleEscape? letter with
        | some meant => return plain meant :: (← stringWithin unicode plain allowance)
        | none => throw .malformed
    else return plain c :: (← stringWithin unicode plain allowance)

/-- Read a string behind its opening quote. -/
def string : Scan (List Char) := do
  stringWithin codePoint id (← get)

/-- Pass a string behind its opening quote; surrogates need no partner. -/
def skipString : Scan Unit := do
  let _ ← stringWithin hexEscape Char.toNat (← get)

end Scan

end EffectScript.Json
