/-!
# Lines

A text is cut after each line feed.  The pieces keep their line ends, so joining them gives the
text back; a text that ends in a line feed has no empty last line, and the empty text has no line.
-/

namespace EffectScript.Text

/-- The lines of a text, each with its line end. -/
def lines : List Char → List (List Char)
  | [] => []
  | c :: rest =>
    if c = '\n' then [c] :: lines rest
    else
      match lines rest with
      | [] => [[c]]
      | line :: more => (c :: line) :: more

/-- Cutting into lines loses nothing. -/
theorem flatten_lines (text : List Char) : (lines text).flatten = text := by
  induction text with
  | nil => rfl
  | cons c rest ih =>
    unfold lines
    split
    · simp [ih]
    · split <;> simp_all

/-- A carriage return or a line feed. -/
def isLineEnd (c : Char) : Bool :=
  c == '\n' || c == '\r'

end EffectScript.Text
