import EffectScript.Language.Grammar

/-!
# Printing trees

A `Phrase` is a tree that has a written form: its numbers carry their text, its names are names that
the grammar reads as such, and a block has two statements at least.  `Phrase.print` writes it down
as words.  A child stands bare in its place if the grammar reads it back there, and in parentheses
otherwise; `wraps` asks for parentheses beyond the necessary ones.

Beside the words, a printed piece records what reading them takes: the level of the grammar at which
it stands, the nesting budget that its parts need, and the length of its run of binary operators,
each of which costs one level of the budget of everything behind it.
-/

namespace EffectScript.Language

/-- A token without its place. -/
structure Word where
  kind : TokenKind
  text : String
  deriving DecidableEq, Repr

/-- The word of a token. -/
def Token.word (token : Token) : Word :=
  ⟨token.kind, token.text⟩

/-- A name that does not open a section. -/
structure PlainName where
  text : String
  unmarked : text.toList.head? ≠ some '@'

/-- The name of a variable of the script. -/
structure VariableName extends PlainName where
  notConstant : constant? text = none
  notHost : HostVar.ofName? text = none

/-- A host variable that a script can name. -/
structure HostName where
  var : HostVar
  addressed : ∀ index, var = .slider index → index < sliderCount

/-- A tree that can be written down. -/
inductive Phrase where
  /-- A number by its text. -/
  | number (text : String)
  | string (text : String)
  | host (name : HostName)
  | named (name : VariableName)
  | element (name : PlainName) (index : Phrase)
  | call (name : PlainName) (arguments : List Phrase)
  | unary (op : UnaryOp) (operand : Phrase)
  | binary (op : BinaryOp) (left right : Phrase)
  | assign (op : AssignOp) (target value : Phrase)
  | ifThen (condition thenBranch : Phrase)
  | ifThenElse (condition thenBranch elseBranch : Phrase)
  | whileLoop (condition body : Phrase)
  | block (first second : Phrase) (more : List Phrase)

mutual

/-- The tree of a phrase, with all names numbered zero. -/
def Phrase.node : Phrase → Node
  | .number text => .number ((Number.readFloat? text.toList).getD 0.0)
  | .string text => .string text
  | .host name => .var (.host name.var)
  | .named name => .var (.named name.text 0)
  | .element name index => .element name.text index.node
  | .call name arguments => .call name.text 0 (nodeAll arguments)
  | .unary op operand => .unary op operand.node
  | .binary op left right => .binary op left.node right.node
  | .assign op target value => .assign op target.node value.node
  | .ifThen condition thenBranch => .ifThen condition.node thenBranch.node
  | .ifThenElse condition thenBranch elseBranch =>
    .ifThenElse condition.node thenBranch.node elseBranch.node
  | .whileLoop condition body => .whileLoop condition.node body.node
  | .block first second more => .block (first.node :: second.node :: nodeAll more)

/-- The trees of phrases in sequence. -/
def nodeAll : List Phrase → List Node
  | [] => []
  | phrase :: phrases => phrase.node :: nodeAll phrases

end

/-! ### Pieces -/

/-- Levels of the grammar, from the tightest. -/
inductive Level where
  | primary
  | unary
  | binary
  | assignment
  | conditional
  | loop
  deriving DecidableEq, Repr

/-- Place of a level in their order. -/
def Level.rank : Level → Nat
  | primary => 0
  | unary => 1
  | binary => 2
  | assignment => 3
  | conditional => 4
  | loop => 5

/-- Places of a child in its parent. -/
inductive Slot where
  /-- Behind a unary operator. -/
  | operand
  /-- Before a binary operator. -/
  | left
  /-- Behind a binary operator. -/
  | right
  | target
  | value
  | condition
  /-- Behind the question mark or the colon of a conditional. -/
  | branch
  /-- Behind the condition of a loop. -/
  | body
  /-- Between brackets or separators of its parent. -/
  | enclosed
  deriving DecidableEq, Repr

/-- The loosest level that is read back bare. -/
def Slot.limit : Slot → Level
  | operand => .unary
  | left => .binary
  | right => .unary
  | target => .binary
  | value => .assignment
  | condition => .binary
  | branch => .assignment
  | body => .assignment
  | enclosed => .loop

/-- A printed tree. -/
structure Piece where
  words : List Word
  level : Level
  /-- Levels of nesting that its parts need. -/
  charge : Nat
  /-- Length of its run of binary operators. -/
  spine : Nat

namespace Piece

/-- Levels of nesting that reading it as an expression needs. -/
def expressionCharge (piece : Piece) : Nat :=
  if piece.level = .loop then piece.charge + 2 else piece.charge + 1

/-- Levels of nesting that reading it as a statement needs. -/
def statementCharge (piece : Piece) : Nat :=
  if piece.level = .loop then piece.charge + 1 else piece.charge + 2

/-- The greatest cost among pieces. -/
def heaviest (cost : Piece → Nat) : List Piece → Nat
  | [] => 0
  | piece :: pieces => max (cost piece) (heaviest cost pieces)

/-- Pieces, each behind a mark. -/
def behind (mark : String) (pieces : List Piece) : List Word :=
  pieces.flatMap fun piece => ⟨.punctuation, mark⟩ :: piece.words

/-- A single word. -/
def word (kind : TokenKind) (text : String) : Piece :=
  ⟨[⟨kind, text⟩], .primary, 0, 0⟩

/-- A statement in parentheses. -/
def parenthesized (inner : Piece) : Piece :=
  ⟨⟨.punctuation, "("⟩ :: (inner.words ++ [⟨.punctuation, ")"⟩]), .primary,
    inner.statementCharge, 0⟩

/-- Statements in parentheses. -/
def block (first : Piece) (more : List Piece) : Piece :=
  ⟨⟨.punctuation, "("⟩ :: (first.words ++ (behind ";" more ++ [⟨.punctuation, ")"⟩])), .primary,
    heaviest statementCharge (first :: more), 0⟩

/-- The list of arguments without its parentheses. -/
def listed : List Piece → List Word
  | [] => []
  | first :: more => first.words ++ behind "," more

def call (name : String) (arguments : List Piece) : Piece :=
  ⟨⟨.identifier, name⟩ :: ⟨.punctuation, "("⟩ :: (listed arguments ++ [⟨.punctuation, ")"⟩]),
    .primary, heaviest expressionCharge arguments, 0⟩

def element (name : String) (index : Piece) : Piece :=
  ⟨⟨.identifier, name⟩ :: ⟨.punctuation, "["⟩ :: (index.words ++ [⟨.punctuation, "]"⟩]),
    .primary, index.expressionCharge, 0⟩

def unary (op : UnaryOp) (operand : Piece) : Piece :=
  ⟨⟨.operator, op.symbol⟩ :: operand.words, .unary, operand.charge + 1, 0⟩

def binary (op : BinaryOp) (left right : Piece) : Piece :=
  ⟨left.words ++ ⟨.operator, op.symbol⟩ :: right.words, .binary,
    max left.charge (left.spine + 1 + right.charge), left.spine + 1⟩

def assign (op : AssignOp) (target value : Piece) : Piece :=
  ⟨target.words ++ ⟨.operator, op.symbol⟩ :: value.words, .assignment,
    max target.charge value.expressionCharge, 0⟩

def ifThen (condition thenBranch : Piece) : Piece :=
  ⟨condition.words ++ ⟨.operator, "?"⟩ :: thenBranch.words, .conditional,
    max condition.charge thenBranch.expressionCharge, 0⟩

def ifThenElse (condition thenBranch elseBranch : Piece) : Piece :=
  ⟨condition.words ++ ⟨.operator, "?"⟩ ::
      (thenBranch.words ++ ⟨.punctuation, ":"⟩ :: elseBranch.words), .conditional,
    max condition.charge (max thenBranch.expressionCharge elseBranch.expressionCharge), 0⟩

def whileLoop (condition body : Piece) : Piece :=
  ⟨⟨.keyword, "while"⟩ :: ⟨.punctuation, "("⟩ ::
      (condition.words ++ ⟨.punctuation, ")"⟩ :: body.words), .loop,
    max condition.expressionCharge body.statementCharge, 0⟩

/-- Whether the piece stands bare in a slot. -/
def fits (piece : Piece) (slot : Slot) : Bool :=
  piece.level.rank ≤ slot.limit.rank

/-- The piece in a slot: in parentheses if it does not fit or if they are asked for. -/
def place (piece : Piece) (slot : Slot) (wrapped : Bool) : Piece :=
  if piece.fits slot && !wrapped then piece else piece.parenthesized

end Piece

mutual

/-- Write a phrase down. -/
def Phrase.print (wraps : Slot → Phrase → Bool) : Phrase → Piece
  | .number text => .word .number text
  | .string text => .word .string text
  | .host name => .word .identifier name.var.name
  | .named name => .word .identifier name.text
  | .element name index =>
    .element name.text ((index.print wraps).place .enclosed (wraps .enclosed index))
  | .call name arguments => .call name.text (printAll wraps arguments)
  | .unary op operand =>
    .unary op ((operand.print wraps).place .operand (wraps .operand operand))
  | .binary op left right =>
    .binary op ((left.print wraps).place .left (wraps .left left))
      ((right.print wraps).place .right (wraps .right right))
  | .assign op target value =>
    .assign op ((target.print wraps).place .target (wraps .target target))
      ((value.print wraps).place .value (wraps .value value))
  | .ifThen condition thenBranch =>
    .ifThen ((condition.print wraps).place .condition (wraps .condition condition))
      ((thenBranch.print wraps).place .branch (wraps .branch thenBranch))
  | .ifThenElse condition thenBranch elseBranch =>
    .ifThenElse ((condition.print wraps).place .condition (wraps .condition condition))
      ((thenBranch.print wraps).place .branch (wraps .branch thenBranch))
      ((elseBranch.print wraps).place .branch (wraps .branch elseBranch))
  | .whileLoop condition body =>
    .whileLoop ((condition.print wraps).place .enclosed (wraps .enclosed condition))
      ((body.print wraps).place .body (wraps .body body))
  | .block first second more =>
    .block ((first.print wraps).place .enclosed (wraps .enclosed first))
      ((second.print wraps).place .enclosed (wraps .enclosed second) :: printAll wraps more)

/-- Write down phrases that stand between separators. -/
def printAll (wraps : Slot → Phrase → Bool) : List Phrase → List Piece
  | [] => []
  | phrase :: phrases =>
    (phrase.print wraps).place .enclosed (wraps .enclosed phrase) :: printAll wraps phrases

end

end EffectScript.Language
