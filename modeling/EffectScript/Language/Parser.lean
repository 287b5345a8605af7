import EffectScript.Language.Cursor
import EffectScript.Language.NameTable
import EffectScript.Language.Tree
import EffectScript.Log

/-!
# Parser state and moves

A parser stands in a list of meaningful tokens and numbers the names it meets.  It is lenient: a
missing mark is passed over with a note, and so is a token that fits nowhere.  The only failure is
`NestingError`, raised where a descent exceeds the nesting budget; the state reached before it is
kept, and each such refusal costs the parser one level of its budget for good.
-/

namespace EffectScript.Language

/-- The place where a script nests too deeply. -/
structure NestingError where
  line : Nat
  column : Nat
  deriving DecidableEq, Repr

/-- A parser and everything it has learnt. -/
structure Parser where
  /-- Tokens not yet consumed, up to the end of the source. -/
  rest : List Token
  /-- The token at which the source ends. -/
  finish : Token
  /-- Number of consumed tokens. -/
  consumed : Nat
  /-- Levels of nesting in use. -/
  depth : Nat
  symbols : NameTable
  functions : NameTable
  /-- Records noted so far, newest first. -/
  notes : List LogRecord

/-- A parsing step: it moves the parser, and fails only on too deep nesting. -/
abbrev Parse := EStateM NestingError Parser

/-- Levels of nesting that a parser can afford, shared by statements, expressions, chains of unary
operators and runs of binary operators. -/
def nestingLimit : Nat := 256

namespace Parser

/-- The end of a token list without an end token: the place of the last token. -/
def syntheticFinish (tokens : List Token) : Token :=
  match tokens.getLast? with
  | some token => ⟨.endOfFile, "", token.line, token.column⟩
  | none => ⟨.endOfFile, "", 1, 1⟩

/-- A parser at the beginning of a token list, which ends at its first end token. -/
def ofTokens (tokens : List Token) : Parser :=
  let meaningful := tokens.filter fun token => !token.isTrivia
  { rest := meaningful.takeWhile fun token => !token.isEndOfFile
    finish := (meaningful.find? Token.isEndOfFile).getD (syntheticFinish meaningful)
    consumed := 0
    depth := 0
    symbols := .empty
    functions := .empty
    notes := [] }

/-- A parser at the beginning of a source. -/
def ofSource (source : String) : Parser :=
  ofTokens (tokenize source)

/-- The token at which the parser stands. -/
def current (parser : Parser) : Token :=
  parser.rest.headD parser.finish

/-- The token after the current one. -/
def following (parser : Parser) : Token :=
  parser.rest.tail.headD parser.finish

/-- Move behind the current token; at the end nothing moves. -/
def advance (parser : Parser) : Parser :=
  match parser.rest with
  | [] => parser
  | _ :: rest => { parser with rest, consumed := parser.consumed + 1 }

/-- Whether all tokens are consumed. -/
def atEnd (parser : Parser) : Bool :=
  parser.rest.isEmpty

/-- Whether a section ends here: at the end, or at the marker of the next one. -/
def atBoundary (parser : Parser) : Bool :=
  parser.atEnd || parser.current.isSectionMarker

/-- One token for each round that a repetition can take: the remaining ones, and one for the end. -/
def allowance (parser : Parser) : List Token :=
  parser.finish :: parser.rest

/-- Note a message. -/
def note (message : String) (parser : Parser) : Parser :=
  { parser with notes := ⟨.trace, message⟩ :: parser.notes }

/-- Move behind the separators in front. -/
def skipSeparators (parser : Parser) : Parser :=
  let separators := parser.rest.takeWhile (·.isPunctuation ";")
  { parser with
    rest := parser.rest.dropWhile (·.isPunctuation ";")
    consumed := parser.consumed + separators.length }

/-- Move behind a separator that stands before `else`. -/
def skipBeforeElse (parser : Parser) : Parser :=
  if parser.current.isPunctuation ";" && parser.following.isKeyword "else" then parser.advance
  else parser

/-- Move behind the current token if nothing was consumed since `start`, with a note. -/
def ensureProgress (start : Nat) (parser : Parser) : Parser :=
  if parser.consumed == start && !parser.atEnd then
    let token := parser.current
    parser.advance.note
      s!"skipping unexpected '{token.text}' at {token.line}:{token.column}"
  else parser

end Parser

namespace Parse

/-- Look at the parser without moving it. -/
def inspect {α : Type} (view : Parser → α) : Parse α :=
  modifyGet fun parser => (view parser, parser)

/-- The current token. -/
def current : Parse Token :=
  inspect Parser.current

/-- Move behind the current token. -/
def advance : Parse Unit :=
  modify Parser.advance

/-- Consume a punctuation mark if it is the current token. -/
def eat (mark : String) : Parse Bool := do
  if (← current).isPunctuation mark then
    advance
    return true
  else
    return false

/-- Consume a punctuation mark; if it is missing, note so and carry on. -/
def expect (mark : String) : Parse Unit := do
  if !(← eat mark) then
    let found ← current
    modify (Parser.note
      s!"expected '{mark}' at {found.line}:{found.column}, found '{found.text}'")

/-- Refuse to descend: the budget is used up at the current token. -/
def refuse {α : Type} : Parse α := do
  let token ← current
  modify fun parser => { parser with depth := parser.depth + 1 }
  throw ⟨token.line, token.column⟩

/-- Number a variable name. -/
def internSymbol (name : String) : Parse Nat :=
  modifyGet fun parser =>
    match parser with
    | ⟨rest, finish, consumed, depth, symbols, functions, notes⟩ =>
      let (number, symbols) := symbols.intern name
      (number, ⟨rest, finish, consumed, depth, symbols, functions, notes⟩)

/-- Number a function name. -/
def internFunction (name : String) : Parse Nat :=
  modifyGet fun parser =>
    match parser with
    | ⟨rest, finish, consumed, depth, symbols, functions, notes⟩ =>
      let (number, functions) := functions.intern name
      (number, ⟨rest, finish, consumed, depth, symbols, functions, notes⟩)

end Parse

end EffectScript.Language
