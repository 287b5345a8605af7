import EffectScript.Language.Parser

/-!
# Grammar

Statements are `if`, `while`, braced blocks and expressions.  An expression is an assignment, which
groups to the right, of a conditional, of a run of binary operators, which all share one level and
group to the left, of unary operators and primaries.

Every descent is charged to a nesting budget.  `Grammar` holds the parsers for one remaining budget,
and `grammar` builds them level by level: the parsers of one level descend only into those of the
level below, so the recursion is on the budget.  Repetitions consume a token each time round, so
they recurse on the tokens that remain at their start.
-/

namespace EffectScript.Language

/-- The parsers for one remaining budget. -/
structure Grammar where
  statement : Parse Node
  expression : Parse Node
  /-- Unary operators and the primary they apply to. -/
  unary : Parse Node
  /-- Continue a run of binary operators after its left operand. -/
  run : Node → Parse Node

/-- Slider denoted by the digits after `slider`: counted from zero, and only up to the last one. -/
def sliderIndex? (digits : List Char) : Option Nat :=
  if digits.isEmpty || !digits.all Number.isDigit then none
  else
    let number := Number.digitsValue digits
    if 1 ≤ number && number ≤ sliderCount then some (number - 1) else none

/-- The host variable with a name. -/
def HostVar.ofName? (name : String) : Option HostVar :=
  match name with
  | "spl0" => some .spl0
  | "spl1" => some .spl1
  | "srate" => some .srate
  | "tempo" => some .tempo
  | "beat_position" => some .beatPosition
  | "play_state" => some .playState
  | "ts_num" => some .tsNum
  | "ts_denom" => some .tsDenom
  | name =>
    match name.toList with
    | 's' :: 'l' :: 'i' :: 'd' :: 'e' :: 'r' :: digits => (sliderIndex? digits).map .slider
    | _ => none

/-- The value of a constant. -/
def constant? : String → Option Float
  | "$pi" => some 3.141592653589793
  | "$e" => some 2.718281828459045
  | "$phi" => some 1.618033988749895
  | _ => none

/-- The operator that a token is, according to a table of symbols. -/
def Token.operator? {α : Type} (ofSymbol? : String → Option α) (token : Token) : Option α :=
  if token.kind == .operator then ofSymbol? token.text else none

/-- The value of a number token; an unreadable text counts as zero. -/
def Token.value (token : Token) : Float :=
  (Number.readFloat? token.text.toList).getD 0.0

namespace Parse

/-! ### Repetitions -/

/-- Statements up to a section boundary or a token that stops them, at most one for each token of
the allowance. -/
def statementsWithin (statement : Parse Node) (stops : Token → Bool) :
    List Token → Parse (List Node)
  | [] => return []
  | _ :: allowance => do
    modify Parser.skipSeparators
    if ← inspect fun parser => parser.atBoundary || stops parser.current then
      return []
    else
      let start ← inspect Parser.consumed
      let node ← statement
      modify (Parser.ensureProgress start)
      let nodes ← statementsWithin statement stops allowance
      return node :: nodes

/-- Statements up to a section boundary or a token that stops them. -/
def statements (statement : Parse Node) (stops : Token → Bool) : Parse (List Node) := do
  statementsWithin statement stops (← inspect Parser.allowance)

/-- Arguments up to a closing parenthesis or a section boundary, at most one for each token of the
allowance. -/
def argumentsWithin (expression : Parse Node) : List Token → Parse (List Node)
  | [] => return []
  | _ :: allowance => do
    if ← inspect fun parser => parser.current.isPunctuation ")" || parser.atBoundary then
      return []
    else
      let start ← inspect Parser.consumed
      let node ← expression
      let _ ← eat ","
      modify (Parser.ensureProgress start)
      let nodes ← argumentsWithin expression allowance
      return node :: nodes

/-- Arguments up to a closing parenthesis or a section boundary. -/
def arguments (expression : Parse Node) : Parse (List Node) := do
  argumentsWithin expression (← inspect Parser.allowance)

/-! ### Statements -/

/-- The `else` part of an `if` statement, if there is one; a separator before it is passed over. -/
def elsePart (statement : Parse Node) (condition thenBranch : Node) : Parse Node := do
  modify Parser.skipBeforeElse
  if (← current).isKeyword "else" then
    advance
    let elseBranch ← statement
    return .ifThenElse condition thenBranch elseBranch
  else
    return .ifThen condition thenBranch

/-- An `if` statement at its keyword. -/
def ifStatement (statement expression : Parse Node) : Parse Node := do
  advance
  expect "("
  let condition ← expression
  expect ")"
  let thenBranch ← statement
  elsePart statement condition thenBranch

/-- A `while` statement at its keyword. -/
def whileStatement (statement expression : Parse Node) : Parse Node := do
  advance
  expect "("
  let condition ← expression
  expect ")"
  let body ← statement
  return .whileLoop condition body

/-- A block at its opening brace. -/
def bracedBlock (statement : Parse Node) : Parse Node := do
  advance
  let body ← statements statement (·.isPunctuation "\x7d")
  expect "\x7d"
  return .block body

/-- A statement within the budget. -/
def statementBody (statement expression : Parse Node) : Parse Node := do
  let token ← current
  if token.isKeyword "if" then ifStatement statement expression
  else if token.isKeyword "while" then whileStatement statement expression
  else if token.isPunctuation "\x7b" then bracedBlock statement
  else expression

/-! ### Primaries -/

/-- What a bare name denotes: a constant, a host variable or a variable of the script. -/
def bareName (name : String) : Parse Node := do
  match constant? name with
  | some value => return .number value
  | none =>
    match HostVar.ofName? name with
    | some host => return .var (.host host)
    | none =>
      let symbol ← internSymbol name
      return .var (.named name symbol)

/-- A call, an array element or a bare name, behind the name. -/
def afterName (expression : Parse Node) (name : String) : Parse Node := do
  if ← eat "(" then
    let arguments ← arguments expression
    expect ")"
    let function ← internFunction name
    return .call name function arguments
  else if ← eat "[" then
    let index ← expression
    expect "]"
    return .element name index
  else
    bareName name

/-- A parenthesized statement, or several with separators, which make a block. -/
def parenthesized (statement : Parse Node) : Parse Node := do
  let first ← statement
  if (← current).isPunctuation ";" then
    let more ← statements statement (·.isPunctuation ")")
    expect ")"
    return .block (first :: more)
  else
    expect ")"
    return first

/-- A missing operand counts as zero. -/
def missingOperand (token : Token) : Parse Node := do
  modify (Parser.note
    s!"no expression at {token.line}:{token.column} ('{token.text}'), using 0")
  return .number 0.0

/-- A primary: a literal, a name with what follows it, a statement in operand position or a
parenthesis. -/
def primary (statement expression : Parse Node) : Parse Node := do
  let token ← current
  match token.kind with
  | .number =>
    advance
    return .number token.value
  | .string =>
    advance
    return .string token.text
  | .identifier =>
    if token.isSectionMarker then missingOperand token
    else
      advance
      afterName expression token.text
  | .keyword =>
    if token.text == "if" || token.text == "while" then statement
    else missingOperand token
  | .punctuation =>
    if token.text == "(" then
      advance
      parenthesized statement
    else missingOperand token
  | _ => missingOperand token

/-! ### Expressions -/

/-- A conditional; the part after the colon may be absent. -/
def conditional (unary : Parse Node) (run : Node → Parse Node) (expression : Parse Node) :
    Parse Node := do
  let condition ← run (← unary)
  if (← current).isOperator "?" then
    advance
    let thenBranch ← expression
    if ← eat ":" then
      let elseBranch ← expression
      return .ifThenElse condition thenBranch elseBranch
    else
      return .ifThen condition thenBranch
  else
    return condition

/-- An expression within the budget: a conditional, or an assignment to one. -/
def expressionBody (unary : Parse Node) (run : Node → Parse Node) (expression : Parse Node) :
    Parse Node := do
  let target ← conditional unary run expression
  match (← current).operator? AssignOp.ofSymbol? with
  | some op =>
    advance
    let value ← expression
    return .assign op target value
  | none => return target

/-- Unary operators and their primary; `deeper` parses the operand within the budget. -/
def unaryBody (deeper : Parse Node) (statement expression : Parse Node) : Parse Node := do
  match (← current).operator? UnaryOp.ofSymbol? with
  | some op => return .unary op (← deeper)
  | none => primary statement expression

/-- A run of binary operators behind its left operand; `deeper` parses the rest of the run once an
operator is met. -/
def runBody (deeper : BinaryOp → Node → Parse Node) (left : Node) : Parse Node := do
  match (← current).operator? BinaryOp.ofSymbol? with
  | some op => deeper op left
  | none => return left

end Parse

namespace Grammar

/-- The parsers without any budget: every descent is refused. -/
def exhausted : Grammar where
  statement := Parse.refuse
  expression := Parse.refuse
  unary := Parse.unaryBody Parse.refuse Parse.refuse Parse.refuse
  run := Parse.runBody fun _ _ => Parse.refuse

/-- The parsers with one more level of budget. -/
def deepen (below : Grammar) : Grammar :=
  let statement := Parse.statementBody below.statement below.expression
  let expression := Parse.expressionBody below.unary below.run below.expression
  { statement
    expression
    unary := Parse.unaryBody (do Parse.advance; below.unary) statement expression
    run := Parse.runBody fun op left => do
      Parse.advance
      let right ← below.unary
      below.run (.binary op left right) }

end Grammar

/-- The parsers for a remaining budget. -/
def grammar : Nat → Grammar
  | 0 => .exhausted
  | budget + 1 => (grammar budget).deepen

namespace Parse

/-- The parsers for what remains of the parser's budget. -/
def available : Parse Grammar := do
  return grammar (nestingLimit - (← inspect Parser.depth))

/-- Parse one expression. -/
def expression : Parse Node := do
  (← available).expression

/-- Parse a section at its marker. -/
def sectionItem (statement : Parse Node) : Parse Node := do
  let name := (← current).text
  advance
  let body ← statements statement fun _ => false
  return .sectionOf name body

/-- Sections and loose statements up to the end, at most one for each token of the allowance. -/
def itemsWithin (statement : Parse Node) : List Token → Parse (List Node)
  | [] => return []
  | _ :: allowance => do
    modify Parser.skipSeparators
    if ← inspect Parser.atEnd then
      return []
    else if (← current).isSectionMarker then
      let item ← sectionItem statement
      let items ← itemsWithin statement allowance
      return item :: items
    else
      let start ← inspect Parser.consumed
      let item ← statement
      modify (Parser.ensureProgress start)
      let items ← itemsWithin statement allowance
      return item :: items

/-- Parse everything up to the end, and hand out the names met. -/
def program : Parse Program := do
  let statement := (← available).statement
  let items ← itemsWithin statement (← inspect Parser.allowance)
  modifyGet fun parser =>
    let (symbolNames, symbols) := parser.symbols.release
    let (functionNames, functions) := parser.functions.release
    (⟨items, symbolNames, functionNames⟩, { parser with symbols, functions })

end Parse

/-- The outcome of a parsing step, and the parser after it. -/
def Parser.run {α : Type} (parser : Parser) (step : Parse α) : Except NestingError α × Parser :=
  match EStateM.run step parser with
  | .ok value after => (.ok value, after)
  | .error error after => (.error error, after)

/-- Parse a whole body. -/
def parse (body : String) : Logged (Except NestingError Program) :=
  let (outcome, after) := (Parser.ofSource body).run Parse.program
  ⟨outcome, after.notes.reverse⟩

end EffectScript.Language
