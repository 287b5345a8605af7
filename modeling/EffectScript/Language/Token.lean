/-!
# Tokens

The lexical units of a script with the place where each begins.  Comments and line breaks are
tokens too, but carry no grammatical meaning; an identifier that begins with `@` opens a section.
-/

namespace EffectScript.Language

/-- Lexical category of a token. -/
inductive TokenKind where
  | number
  | string
  /-- Plain names, section markers and constants that begin with a dollar sign. -/
  | identifier
  | keyword
  | operator
  | punctuation
  | comment
  | newline
  | endOfFile
  deriving DecidableEq, Repr

/-- A lexical unit. -/
structure Token where
  kind : TokenKind
  text : String
  /-- Line of the first character, counted from one. -/
  line : Nat
  /-- Column of the first character, counted from one. -/
  column : Nat
  deriving DecidableEq, Repr

namespace Token

/-- The token has the given category and text. -/
def is (token : Token) (kind : TokenKind) (text : String) : Bool :=
  token.kind == kind && token.text == text

/-- The token is the given punctuation mark. -/
def isPunctuation (token : Token) (text : String) : Bool :=
  token.is .punctuation text

/-- The token is the given operator. -/
def isOperator (token : Token) (text : String) : Bool :=
  token.is .operator text

/-- The token is the given keyword. -/
def isKeyword (token : Token) (text : String) : Bool :=
  token.is .keyword text

/-- The token opens a section: an identifier that begins with `@`. -/
def isSectionMarker (token : Token) : Bool :=
  token.kind == .identifier && token.text.toList.head? == some '@'

/-- The token marks the end of the source. -/
def isEndOfFile (token : Token) : Bool :=
  token.kind == .endOfFile

/-- The token carries no grammatical meaning. -/
def isTrivia (token : Token) : Bool :=
  token.kind == .comment || token.kind == .newline

end Token

/-- Words that are keywords rather than identifiers. -/
def keywords : List String :=
  ["if", "else", "while", "function", "loop"]

/-- Operators of two characters, which win over their first character alone. -/
def doubleOperators : List (Char × Char) :=
  [('=', '='), ('!', '='), ('<', '='), ('>', '='), ('+', '='), ('-', '='), ('*', '='), ('/', '='),
   ('&', '&'), ('|', '|')]

/-- Characters that are punctuation rather than operators. -/
def punctuationMarks : List Char :=
  ['(', ')', '\x7b', '\x7d', '[', ']', ';', ',', ':']

end EffectScript.Language
