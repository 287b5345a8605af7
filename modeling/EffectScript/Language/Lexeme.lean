import EffectScript.Language.Token
import EffectScript.Number.Decimal
import EffectScript.Text.Blank

/-!
# Lexemes

A lexeme is the stretch of characters that one token takes from the front of a source, with the
token's category and text.  Reading never fails: a character with no other meaning is an operator,
and a string or block comment that is not closed runs to the end of the source.

The laws `lexeme_taken_append_rest` and `lexeme_taken_ne_nil` say that a lexeme and what follows it
make up the source, and that every lexeme takes something.
-/

namespace EffectScript.Language

/-- The characters that one token takes from the front of a source. -/
structure Lexeme where
  kind : TokenKind
  /-- The text of the token, without quotes, comment marks and escapes. -/
  text : List Char
  /-- The characters of the source that the token covers. -/
  taken : List Char
  /-- What follows in the source. -/
  rest : List Char
  deriving DecidableEq, Repr

/-- The inside of a delimited lexeme, up to and including its closing mark. -/
structure LexemeBody where
  text : List Char
  taken : List Char
  rest : List Char

/-- Put characters in front of a body: what they mean and what they cover. -/
def LexemeBody.prepend (text taken : List Char) (body : LexemeBody) : LexemeBody :=
  ⟨text ++ body.text, taken ++ body.taken, body.rest⟩

/-- Body of a block comment. -/
def blockBody : List Char → LexemeBody
  | [] => ⟨[], [], []⟩
  | '*' :: '/' :: rest => ⟨[], ['*', '/'], rest⟩
  | c :: rest => (blockBody rest).prepend [c] [c]

/-- Meaning of a character after a backslash. -/
def unescape (c : Char) : Char :=
  if c == 'n' then '\n' else if c == 't' then '\t' else if c == 'r' then '\r' else c

/-- Body of a string. -/
def stringBody : List Char → LexemeBody
  | [] => ⟨[], [], []⟩
  | '"' :: rest => ⟨[], ['"'], rest⟩
  | ['\\'] => ⟨[], ['\\'], []⟩
  | '\\' :: c :: rest => (stringBody rest).prepend [unescape c] ['\\', c]
  | c :: rest => (stringBody rest).prepend [c] [c]

/-- An ASCII letter. -/
def isLetter (c : Char) : Bool :=
  ('a' ≤ c && c ≤ 'z') || ('A' ≤ c && c ≤ 'Z')

/-- A character that may begin a name. -/
def isNameStart (c : Char) : Bool :=
  isLetter c || c == '_' || c == '@' || c == '$'

/-- A character that may continue a name. -/
def isNamePart (c : Char) : Bool :=
  isLetter c || Number.isDigit c || c == '_' || c == '@'

/-- Split off the point and the digits after it, if the text begins with a point. -/
def splitFraction : List Char → List Char × List Char
  | '.' :: rest => ('.' :: rest.takeWhile Number.isDigit, rest.dropWhile Number.isDigit)
  | source => ([], source)

/-- Split off a plus or minus sign. -/
def splitSignMark : List Char → List Char × List Char
  | '+' :: rest => (['+'], rest)
  | '-' :: rest => (['-'], rest)
  | source => ([], source)

/-- Split off an exponent; its mark counts only if a digit follows, possibly after a sign. -/
def splitExponent : List Char → List Char × List Char
  | [] => ([], [])
  | mark :: rest =>
    let (sign, unsigned) := splitSignMark rest
    let digits := unsigned.takeWhile Number.isDigit
    if (mark == 'e' || mark == 'E') && !digits.isEmpty then
      (mark :: (sign ++ digits), unsigned.dropWhile Number.isDigit)
    else ([], mark :: rest)

/-- Split off a number: digits, an optional point and digits, an optional exponent. -/
def splitNumber (source : List Char) : List Char × List Char :=
  let (fraction, afterFraction) := splitFraction (source.dropWhile Number.isDigit)
  let (exponent, rest) := splitExponent afterFraction
  (source.takeWhile Number.isDigit ++ (fraction ++ exponent), rest)

/-- Whether a number begins with the given character and rest. -/
def startsNumber (first : Char) (rest : List Char) : Bool :=
  Number.isDigit first || (first == '.' && rest.head?.any Number.isDigit)

/-- A string lexeme after its opening quote. -/
def stringLexeme (rest : List Char) : Lexeme :=
  let body := stringBody rest
  ⟨.string, body.text, '"' :: body.taken, body.rest⟩

/-- A line comment after its first slash. -/
def lineCommentLexeme (rest : List Char) : Lexeme :=
  let line := rest.takeWhile (· != '\n')
  ⟨.comment, Text.trim (line.drop 1), '/' :: line, rest.dropWhile (· != '\n')⟩

/-- A block comment after its opening mark. -/
def blockCommentLexeme (rest : List Char) : Lexeme :=
  let body := blockBody rest
  ⟨.comment, Text.trim body.text, '/' :: '*' :: body.taken, body.rest⟩

/-- A number lexeme. -/
def numberLexeme (source : List Char) : Lexeme :=
  let (number, rest) := splitNumber source
  ⟨.number, number, number, rest⟩

/-- A name lexeme: a keyword or an identifier. -/
def nameLexeme (first : Char) (rest : List Char) : Lexeme :=
  let name := first :: rest.takeWhile isNamePart
  let kind := if keywords.contains (String.ofList name) then .keyword else .identifier
  ⟨kind, name, name, rest.dropWhile isNamePart⟩

/-- Category of a character that stands alone. -/
def symbolKind (c : Char) : TokenKind :=
  if punctuationMarks.contains c then .punctuation else .operator

/-- An operator or punctuation mark; an operator of two characters wins over its first. -/
def symbolLexeme (first : Char) : List Char → Lexeme
  | [] => ⟨symbolKind first, [first], [first], []⟩
  | second :: rest =>
    if doubleOperators.contains (first, second) then
      ⟨.operator, [first, second], [first, second], rest⟩
    else ⟨symbolKind first, [first], [first], second :: rest⟩

/-- The lexeme at the front of a nonempty source. -/
def lexeme (first : Char) (rest : List Char) : Lexeme :=
  if first == '\n' then ⟨.newline, ['\n'], ['\n'], rest⟩
  else if first == '"' then stringLexeme rest
  else if startsNumber first rest then numberLexeme (first :: rest)
  else if isNameStart first then nameLexeme first rest
  else
    match first, rest with
    | '/', '/' :: more => lineCommentLexeme ('/' :: more)
    | '/', '*' :: more => blockCommentLexeme more
    | first, rest => symbolLexeme first rest

/-! ### A lexeme and its rest make up the source -/

theorem blockBody_taken_append_rest (source : List Char) :
    (blockBody source).taken ++ (blockBody source).rest = source := by
  fun_induction blockBody source with
  | case1 => rfl
  | case2 => rfl
  | case3 c rest _ ih => simp [LexemeBody.prepend, ih]

theorem stringBody_taken_append_rest (source : List Char) :
    (stringBody source).taken ++ (stringBody source).rest = source := by
  fun_induction stringBody source with
  | case1 => rfl
  | case2 => rfl
  | case3 => rfl
  | case4 c rest ih => simp [LexemeBody.prepend, ih]
  | case5 c rest _ _ _ ih => simp [LexemeBody.prepend, ih]

theorem splitFraction_append (source : List Char) :
    (splitFraction source).1 ++ (splitFraction source).2 = source := by
  unfold splitFraction
  split <;> simp

theorem splitSignMark_append (source : List Char) :
    (splitSignMark source).1 ++ (splitSignMark source).2 = source := by
  unfold splitSignMark
  split <;> simp

theorem splitExponent_append (source : List Char) :
    (splitExponent source).1 ++ (splitExponent source).2 = source := by
  cases source with
  | nil => rfl
  | cons mark rest =>
    simp only [splitExponent]
    split
    · simp [splitSignMark_append]
    · rfl

theorem splitNumber_append (source : List Char) :
    (splitNumber source).1 ++ (splitNumber source).2 = source := by
  simp [splitNumber, splitExponent_append, splitFraction_append]

/-- A text that begins a number has a number in front. -/
theorem splitNumber_ne_nil {first : Char} {rest : List Char}
    (starts : startsNumber first rest = true) : (splitNumber (first :: rest)).1 ≠ [] := by
  by_cases digit : Number.isDigit first = true
  · simp [splitNumber, digit]
  · have point : first = '.' := by
      simp only [startsNumber, digit, Bool.false_or, Bool.and_eq_true, beq_iff_eq] at starts
      exact starts.1
    subst point
    simp [splitNumber, splitFraction, Number.isDigit]

theorem symbolLexeme_taken_append_rest (first : Char) (rest : List Char) :
    (symbolLexeme first rest).taken ++ (symbolLexeme first rest).rest = first :: rest := by
  unfold symbolLexeme
  split
  · rfl
  · split <;> rfl

theorem symbolLexeme_taken_ne_nil (first : Char) (rest : List Char) :
    (symbolLexeme first rest).taken ≠ [] := by
  unfold symbolLexeme
  split
  · simp
  · split <;> simp

/-- What a lexeme covers, followed by its rest, is the source. -/
theorem lexeme_taken_append_rest (first : Char) (rest : List Char) :
    (lexeme first rest).taken ++ (lexeme first rest).rest = first :: rest := by
  unfold lexeme
  split
  · simp_all
  · split
    · simp_all [stringLexeme, stringBody_taken_append_rest]
    · split
      · simp [numberLexeme, splitNumber_append]
      · split
        · simp [nameLexeme]
        · split
          · simp [lineCommentLexeme]
          · simp [blockCommentLexeme, blockBody_taken_append_rest]
          · exact symbolLexeme_taken_append_rest _ _

/-- Every lexeme covers at least one character. -/
theorem lexeme_taken_ne_nil (first : Char) (rest : List Char) :
    (lexeme first rest).taken ≠ [] := by
  unfold lexeme
  split
  · simp
  · split
    · simp [stringLexeme]
    · split
      · rename_i starts
        simpa [numberLexeme] using splitNumber_ne_nil starts
      · split
        · simp [nameLexeme]
        · split
          · simp [lineCommentLexeme]
          · simp [blockCommentLexeme]
          · exact symbolLexeme_taken_ne_nil _ _

/-- After a lexeme less of the source remains. -/
theorem lexeme_rest_length_lt (first : Char) (rest : List Char) :
    (lexeme first rest).rest.length < (first :: rest).length := by
  have whole := congrArg List.length (lexeme_taken_append_rest first rest)
  have positive := List.length_pos_iff.2 (lexeme_taken_ne_nil first rest)
  simp only [List.length_append] at whole
  omega

end EffectScript.Language
