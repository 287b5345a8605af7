import EffectScript.Script.LoadError
import EffectScript.Text.Blank
import EffectScript.Text.Lines

/-!
# Annotated reports

A report shows a load error under the source line it points at.  The marked span is that line
without its line end, but at least one character; if there is no such line it is the last character
of the source, and it is empty if the source is.  Places are counted in characters, which for the
sources that are reported on are bytes as well.
-/

namespace EffectScript.Script

/-- A stretch of a source, by the offsets of its first character and of the one behind it. -/
structure Span where
  start : Nat
  stop : Nat
  deriving DecidableEq, Repr

/-- Number of characters in a span. -/
def Span.length (span : Span) : Nat :=
  span.stop - span.start

/-- The span of a numbered line among lines that begin at an offset; `number` counts from one. -/
def lineSpanFrom (offset : Nat) : Nat → List (List Char) → Option Span
  | _, [] => none
  | 0, _ => none
  | 1, line :: _ =>
    some ⟨offset, offset + max 1 (Text.dropEndWhile Text.isLineEnd line).length⟩
  | number + 2, line :: rest => lineSpanFrom (offset + line.length) (number + 1) rest

/-- The span that marks a numbered line. -/
def lineSpan (source : List Char) (number : Nat) : Span :=
  (lineSpanFrom 0 number (Text.lines source)).getD ⟨source.length - 1, source.length⟩

/-- The line of an offset: its number, its offset and its text. -/
structure Locus where
  number : Nat
  start : Nat
  text : List Char

/-- Find the line of an offset among lines that begin at an offset; behind the last line, take the
last line. -/
def locusFrom (number start : Nat) (offset : Nat) : List (List Char) → Locus
  | [] => ⟨number, start, []⟩
  | [line] => ⟨number, start, line⟩
  | line :: rest =>
    if offset < start + line.length then ⟨number, start, line⟩
    else locusFrom (number + 1) (start + line.length) offset rest

/-- The line of an offset in a source. -/
def locus (source : List Char) (offset : Nat) : Locus :=
  locusFrom 1 0 offset (Text.lines source)

/-- A character repeated. -/
def repeated (count : Nat) (c : Char) : String :=
  String.ofList (List.replicate count c)

/-- The mark under a span, with a tee above its middle; an empty span has only a stem. -/
def Span.mark (span : Span) : String :=
  let half := span.length / 2
  if span.length == 0 then "│ "
  else repeated half '─' ++ "┬" ++ repeated (span.length - half - 1) '─' ++ "  "

/-- The report on an error in a named source. -/
def LoadError.report (error : LoadError) (name source : String) : String :=
  let characters := source.toList
  let span := lineSpan characters error.line
  let place := locus characters span.start
  let number := toString place.number
  let column := span.start - place.start
  let half := span.length / 2
  let margin := repeated (number.length + 2) ' '
  let rows :=
    ["Error: " ++ error.message,
     margin ++ s!"╭─[ {name}:{place.number}:{column + 1} ]",
     margin ++ "│",
     " " ++ number ++ " │ " ++ String.ofList (Text.dropEndWhile Text.isBlank place.text),
     margin ++ "│ " ++ repeated column ' ' ++ span.mark,
     margin ++ "│ " ++ repeated (column + half) ' ' ++ "╰" ++
       repeated (span.length - half + 1) '─' ++ " " ++ error.remark,
     repeated (number.length + 2) '─' ++ "╯"]
  String.join (rows.map (· ++ "\n"))

end EffectScript.Script
