import EffectScript.Language.Lexeme

/-!
# Reading tokens from a source

A cursor is what remains of a source together with the position of its first character.  Spaces,
tabs and carriage returns between lexemes are skipped.  Positions are a function of the characters
passed alone: a line feed begins a new line, every other character moves one column on.
-/

namespace EffectScript.Language

/-- A place in a source; lines and columns are counted from one. -/
structure Position where
  line : Nat
  column : Nat
  deriving DecidableEq, Repr

namespace Position

/-- The place of the first character of a source. -/
def start : Position := ⟨1, 1⟩

/-- The place after one character. -/
def after (position : Position) (c : Char) : Position :=
  if c == '\n' then ⟨position.line + 1, 1⟩ else ⟨position.line, position.column + 1⟩

/-- The place after a stretch of characters. -/
def advance (position : Position) (passed : List Char) : Position :=
  passed.foldl after position

@[simp]
theorem advance_nil (position : Position) : position.advance [] = position := rfl

end Position

/-- A character that separates lexemes without being one. -/
def isGap (c : Char) : Bool :=
  c == ' ' || c == '\t' || c == '\r'

/-- What remains of a source, and where it begins. -/
structure Cursor where
  rest : List Char
  position : Position
  deriving DecidableEq, Repr

namespace Cursor

/-- The cursor at the beginning of a source. -/
def ofChars (source : List Char) : Cursor := ⟨source, .start⟩

/-- The cursor at the beginning of a source. -/
def ofSource (source : String) : Cursor := ofChars source.toList

/-- Pass a stretch of characters; `rest` is what follows it. -/
def pass (cursor : Cursor) (passed rest : List Char) : Cursor :=
  ⟨rest, cursor.position.advance passed⟩

/-- Pass the separators in front. -/
def skipGap (cursor : Cursor) : Cursor :=
  cursor.pass (cursor.rest.takeWhile isGap) (cursor.rest.dropWhile isGap)

/-- The token of a lexeme that begins at a position. -/
def tokenAt (position : Position) (lexeme : Lexeme) : Token :=
  ⟨lexeme.kind, String.ofList lexeme.text, position.line, position.column⟩

/-- The token that ends a source at a position. -/
def endToken (position : Position) : Token :=
  ⟨.endOfFile, "", position.line, position.column⟩

/-- The next token and the cursor behind it. -/
def next (cursor : Cursor) : Token × Cursor :=
  let here := cursor.skipGap
  match here.rest with
  | [] => (endToken here.position, here)
  | first :: rest =>
    let lexeme := lexeme first rest
    (tokenAt here.position lexeme, here.pass lexeme.taken lexeme.rest)

/-- The next token, which stays unread. -/
def peek (cursor : Cursor) : Token :=
  cursor.next.1

/-- Whether any character remains, separators included. -/
def hasMore (cursor : Cursor) : Bool :=
  !cursor.rest.isEmpty

theorem skipGap_rest_length_le (cursor : Cursor) :
    cursor.skipGap.rest.length ≤ cursor.rest.length :=
  (List.dropWhile_sublist isGap).length_le

/-- All tokens from the cursor on; the last one, and only it, marks the end of the source. -/
def tokens (cursor : Cursor) : List Token :=
  let here := cursor.skipGap
  match _remaining : here.rest with
  | [] => [endToken here.position]
  | first :: rest =>
    let lexeme := lexeme first rest
    tokenAt here.position lexeme :: (here.pass lexeme.taken lexeme.rest).tokens
termination_by cursor.rest.length
decreasing_by
  have shorter := lexeme_rest_length_lt first rest
  have bound := cursor.skipGap_rest_length_le
  rw [_remaining] at bound
  exact Nat.lt_of_lt_of_le shorter bound

/-- The cursor when every token has been read. -/
def finish (cursor : Cursor) : Cursor :=
  cursor.pass cursor.rest []

end Cursor

/-- The tokens of a source, ending with the end-of-source token. -/
def tokenize (source : String) : List Token :=
  (Cursor.ofSource source).tokens

end EffectScript.Language
