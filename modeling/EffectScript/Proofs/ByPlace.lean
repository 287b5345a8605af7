import EffectScript.Language.Grammar

/-!
# Parsing by place

`Parse` eats up a list, gives every repetition an allowance, and descends through a grammar that is
built for its budget, so that it ends by the way it is written.  The parser of this file does none
of that.  It stands at a place of an array and looks up the token there, it repeats for as long as
the tokens bid it to, and it counts its depth up and down.

Such a parser might run forever, look outside the array, or leave more levels than it has entered.
In the last two cases it gives nothing.  For the first one, a parser is told how many calls may be
nested in each other, where a repetition is a call as well, and it gives nothing if that does not
suffice.  A parser that runs forever gives nothing then, however many calls it may nest.
-/

namespace EffectScript.Language

namespace ByPlace

/-- A parser at a place of its tokens. -/
structure Walker where
  tokens : Array Token
  place : Nat
  depth : Nat
  symbols : NameTable
  functions : NameTable

/-- Tokens without trivia, with an end token behind them unless the last one is an end token. -/
def closed (tokens : List Token) : List Token :=
  let meaningful := tokens.filter fun token => !token.isTrivia
  if meaningful.getLast?.any Token.isEndOfFile then meaningful
  else meaningful ++ [Parser.syntheticFinish meaningful]

/-- The parser before the first token. -/
def Walker.ofTokens (tokens : List Token) : Walker where
  tokens := (closed tokens).toArray
  place := 0
  depth := 0
  symbols := .empty
  functions := .empty

/-- A step that cannot be refused. -/
abbrev Walk := StateT Walker Option

/-- A step that may be refused for too deep nesting. -/
abbrev Reading := ExceptT NestingError Walk

variable {α : Type}

/-! ### Moves -/

/-- The token at a place, if the array reaches that far. -/
def tokenAt (place : Nat) : Walk Token := do
  let walker ← get
  StateT.lift walker.tokens[place]?

/-- The token at which the parser stands, or the last one. -/
def peek : Walk Token := do
  let walker ← get
  tokenAt (min walker.place (walker.tokens.size - 1))

/-- The token after that. -/
def peekNext : Walk Token := do
  let walker ← get
  tokenAt (min (walker.place + 1) (walker.tokens.size - 1))

/-- Move one place on, unless at an end token. -/
def advance : Walk Unit := do
  if !(← peek).isEndOfFile then
    modify fun walker => { walker with place := walker.place + 1 }

def atEnd : Walk Bool := do
  return (← peek).isEndOfFile

/-- Whether a section ends here. -/
def atBoundary : Walk Bool := do
  if ← atEnd then return true
  else return (← peek).isSectionMarker

/-- Pass a punctuation mark if it stands here. -/
def eat (mark : String) : Walk Bool := do
  if (← peek).isPunctuation mark then
    advance
    return true
  else
    return false

/-- Pass a punctuation mark, or look at what stands in its place. -/
def expect (mark : String) : Walk Unit := do
  if !(← eat mark) then
    let _ ← peek

/-- What a parser does that may not nest one more call. -/
def giveUp : Walk α :=
  StateT.lift none

/-- Pass separators as long as there are any. -/
def skipSeparators : Nat → Walk Unit
  | 0 => giveUp
  | calls + 1 => do
    if ← eat ";" then skipSeparators calls

/-- Pass a separator that stands before `else`. -/
def skipBeforeElse : Walk Unit := do
  if (← peek).isPunctuation ";" then
    if (← peekNext).isKeyword "else" then advance

/-- Move on if the place is still `start`. -/
def ensureProgress (start : Nat) : Walk Unit := do
  if (← get).place == start then
    if !(← atEnd) then advance

/-- Enter one more level, unless it is one too many. -/
def enter : Reading Unit := do
  modify fun walker => { walker with depth := walker.depth + 1 }
  if nestingLimit < (← get).depth then
    let token ← peek
    throw ⟨token.line, token.column⟩

/-- Leave levels that were entered. -/
def leave (levels : Nat) : Walk Unit := do
  let walker ← get
  StateT.lift (if levels ≤ walker.depth then some () else none)
  set { walker with depth := walker.depth - levels }

/-- Leave one level after a step, whether it is refused or not. -/
abbrev leaving (step : Reading α) : Reading α :=
  (do
    let outcome ← step.run
    leave 1
    return outcome : Walk (Except NestingError α))

def internSymbol (name : String) : Walk Nat :=
  modifyGet fun walker =>
    let (number, symbols) := walker.symbols.intern name
    (number, { walker with symbols })

def internFunction (name : String) : Walk Nat :=
  modifyGet fun walker =>
    let (number, functions) := walker.functions.intern name
    (number, { walker with functions })

/-- What a bare name denotes. -/
def bareName (name : String) : Walk Node := do
  match constant? name with
  | some value => return .number value
  | none =>
    match HostVar.ofName? name with
    | some host => return .var (.host host)
    | none => return .var (.named name (← internSymbol name))

/-! ### Statements and expressions -/

mutual

/-- Statements up to a section boundary or a token that stops them. -/
def statementsUntil : Nat → (Token → Bool) → Reading (List Node)
  | 0, _ => giveUp
  | calls + 1, stops => do
    skipSeparators calls
    if (← atBoundary) || stops (← peek) then return []
    else
      let start := (← get).place
      let node ← statement calls
      ensureProgress start
      let nodes ← statementsUntil calls stops
      return node :: nodes

def statement : Nat → Reading Node
  | 0 => giveUp
  | calls + 1 => do
    enter
    let token ← peek
    leaving
      (if token.isKeyword "if" then ifStatement calls
      else if token.isKeyword "while" then whileStatement calls
      else if token.isPunctuation "\x7b" then bracedBlock calls
      else expression calls)

def ifStatement : Nat → Reading Node
  | 0 => giveUp
  | calls + 1 => do
    advance
    expect "("
    let condition ← expression calls
    expect ")"
    let thenBranch ← statement calls
    skipBeforeElse
    if (← peek).isKeyword "else" then
      advance
      let elseBranch ← statement calls
      return .ifThenElse condition thenBranch elseBranch
    else
      return .ifThen condition thenBranch

def whileStatement : Nat → Reading Node
  | 0 => giveUp
  | calls + 1 => do
    advance
    expect "("
    let condition ← expression calls
    expect ")"
    let body ← statement calls
    return .whileLoop condition body

def bracedBlock : Nat → Reading Node
  | 0 => giveUp
  | calls + 1 => do
    advance
    let body ← statementsUntil calls (·.isPunctuation "\x7d")
    expect "\x7d"
    return .block body

def expression : Nat → Reading Node
  | 0 => giveUp
  | calls + 1 => do
    enter
    leaving (assignment calls)

def assignment : Nat → Reading Node
  | 0 => giveUp
  | calls + 1 => do
    let target ← conditional calls
    match (← peek).operator? AssignOp.ofSymbol? with
    | some op =>
      advance
      let value ← expression calls
      return .assign op target value
    | none => return target

def conditional : Nat → Reading Node
  | 0 => giveUp
  | calls + 1 => do
    let condition ← binary calls
    if (← peek).isOperator "?" then
      advance
      let thenBranch ← expression calls
      if ← eat ":" then
        let elseBranch ← expression calls
        return .ifThenElse condition thenBranch elseBranch
      else
        return .ifThen condition thenBranch
    else
      return condition

/-- A run of binary operators; every operator enters a level, which is left behind the run. -/
def binary : Nat → Reading Node
  | 0 => giveUp
  | calls + 1 => do
    let left ← unary calls
    (do
      let (outcome, levels) ← operators calls left 0
      leave levels
      return outcome : Walk (Except NestingError Node))

/-- Operators and their right operands behind a left operand, with the levels entered so far. -/
def operators : Nat → Node → Nat → Walk (Except NestingError Node × Nat)
  | 0, _, _ => giveUp
  | calls + 1, left, levels => do
    match (← peek).operator? BinaryOp.ofSymbol? with
    | some op =>
      match ← enter.run with
      | .ok () =>
        advance
        match ← (unary calls).run with
        | .ok right => operators calls (.binary op left right) (levels + 1)
        | .error refusal => return (.error refusal, levels + 1)
      | .error refusal => return (.error refusal, levels)
    | none => return (.ok left, levels)

def unary : Nat → Reading Node
  | 0 => giveUp
  | calls + 1 => do
    match (← peek).operator? UnaryOp.ofSymbol? with
    | some op =>
      enter
      advance
      let operand ← leaving (unary calls)
      return .unary op operand
    | none => primary calls

def primary : Nat → Reading Node
  | 0 => giveUp
  | calls + 1 => do
    let token ← peek
    match token.kind with
    | .number =>
      advance
      return .number token.value
    | .string =>
      advance
      return .string token.text
    | .identifier =>
      if token.isSectionMarker then return .number 0.0
      else
        advance
        afterName calls token.text
    | .keyword =>
      if token.text == "if" || token.text == "while" then statement calls
      else return .number 0.0
    | .punctuation =>
      if token.text == "(" then
        advance
        parenthesized calls
      else return .number 0.0
    | _ => return .number 0.0

def afterName : Nat → String → Reading Node
  | 0, _ => giveUp
  | calls + 1, name => do
    if ← eat "(" then
      let arguments ← arguments calls
      expect ")"
      let function ← internFunction name
      return .call name function arguments
    else if ← eat "[" then
      let index ← expression calls
      expect "]"
      return .element name index
    else
      bareName name

def arguments : Nat → Reading (List Node)
  | 0 => giveUp
  | calls + 1 => do
    if (← peek).isPunctuation ")" || (← atBoundary) then return []
    else
      let start := (← get).place
      let node ← expression calls
      let _ ← eat ","
      ensureProgress start
      let nodes ← arguments calls
      return node :: nodes

def parenthesized : Nat → Reading Node
  | 0 => giveUp
  | calls + 1 => do
    let first ← statement calls
    if (← peek).isPunctuation ";" then
      let more ← statementsUntil calls (·.isPunctuation ")")
      expect ")"
      return .block (first :: more)
    else
      expect ")"
      return first

end

/-! ### Programs -/

def sectionItem (calls : Nat) : Reading Node := do
  let name := (← peek).text
  advance
  let body ← statementsUntil calls fun _ => false
  return .sectionOf name body

/-- Sections and loose statements up to the end. -/
def items : Nat → Reading (List Node)
  | 0 => giveUp
  | calls + 1 => do
    skipSeparators calls
    if ← atEnd then return []
    else if (← peek).isSectionMarker then
      let item ← sectionItem calls
      let more ← items calls
      return item :: more
    else
      let start := (← get).place
      let item ← statement calls
      ensureProgress start
      let more ← items calls
      return item :: more

/-- Parse everything up to the end, and hand out the names met. -/
def program (calls : Nat) : Reading Program := do
  let items ← items calls
  let walker ← get
  let (symbolNames, symbols) := walker.symbols.release
  let (functionNames, functions) := walker.functions.release
  set { walker with symbols, functions }
  return ⟨items, symbolNames, functionNames⟩

/-- What the parser makes of tokens if it may nest so many calls, and where it stands then. -/
def parseTokens (calls : Nat) (tokens : List Token) :
    Option (Except NestingError Program × Walker) :=
  (program calls).run.run (.ofTokens tokens)

end ByPlace

end EffectScript.Language
