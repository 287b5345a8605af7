import EffectScript.Proofs.GrammarLaw
import EffectScript.Proofs.Printing

/-!
# Reading printed pieces

A piece is read back by the parser of its level and by those of the looser levels, whatever tokens
come behind it, as long as the first of them does not continue the piece.  The budget that this
takes is exactly the one that the piece records: with less, the parser is refused.
-/

namespace EffectScript.Language

/-! ### Words in front of a parser -/

/-- The tokens `rest` begin with tokens of the given words, behind which `follow` remains. -/
def Spells : List Word → List Token → List Token → Prop
  | [], rest, follow => rest = follow
  | word :: words, rest, follow =>
    ∃ token later, rest = token :: later ∧ token.word = word ∧ Spells words later follow

theorem spells_append {first second : List Word} {rest follow : List Token} :
    Spells (first ++ second) rest follow ↔
      ∃ middle, Spells first rest middle ∧ Spells second middle follow := by
  induction first generalizing rest with
  | nil => simp [Spells]
  | cons word words ih =>
    simp only [List.cons_append, Spells, ih]
    constructor
    · rintro ⟨token, later, shape, spelled, middle, front, back⟩
      exact ⟨middle, ⟨token, later, shape, spelled, front⟩, back⟩
    · rintro ⟨middle, ⟨token, later, shape, spelled, front⟩, back⟩
      exact ⟨token, later, shape, spelled, middle, front, back⟩

theorem Spells.length_eq {words : List Word} {rest follow : List Token}
    (spells : Spells words rest follow) : rest.length = words.length + follow.length := by
  induction words generalizing rest with
  | nil =>
    rw [Spells] at spells
    simp [spells]
  | cons word words ih =>
    obtain ⟨token, later, rfl, _, spells⟩ := spells
    have length := ih spells
    simp only [List.length_cons]
    omega

theorem spells_map (tokens : List Token) : Spells (tokens.map Token.word) tokens [] := by
  induction tokens with
  | nil => rfl
  | cons token tokens ih => exact ⟨token, tokens, rfl, rfl, ih⟩

namespace Token

variable {token : Token} {kind : TokenKind} {text : String}

theorem word_eq_iff : token.word = ⟨kind, text⟩ ↔ token.kind = kind ∧ token.text = text := by
  simp [word]

theorem is_eq_of_word (spelled : token.word = ⟨kind, text⟩) (other : TokenKind)
    (otherText : String) : token.is other otherText = (kind == other && text == otherText) := by
  obtain ⟨kindEq, textEq⟩ := word_eq_iff.1 spelled
  rw [is, kindEq, textEq]

theorem operator?_of_word {α : Type} (spelled : token.word = ⟨.operator, text⟩)
    (ofSymbol? : String → Option α) : token.operator? ofSymbol? = ofSymbol? text := by
  obtain ⟨kindEq, textEq⟩ := word_eq_iff.1 spelled
  simp [operator?, kindEq, textEq]

theorem operator?_of_kind {α : Type} (other : token.kind ≠ .operator)
    (ofSymbol? : String → Option α) : token.operator? ofSymbol? = none := by
  simp [operator?, other]

/-- The token does not continue a name. -/
def endsName (token : Token) : Bool :=
  !token.isPunctuation "(" && !token.isPunctuation "["

/-- The token does not continue an expression other than a conditional. -/
def endsExpression (token : Token) : Bool :=
  token.endsName && token.kind != .operator

theorem endsName_of_word (spelled : token.word = ⟨kind, text⟩)
    (other : (kind == .punctuation && (text == "(" || text == "[")) = false) :
    token.endsName = true := by
  simp only [endsName, isPunctuation, is_eq_of_word spelled]
  revert other
  cases kind == .punctuation <;> simp

theorem kind_of_endsExpression (ends : token.endsExpression = true) : token.kind ≠ .operator := by
  simp only [endsExpression, Bool.and_eq_true, bne_iff_ne, ne_eq] at ends
  exact ends.2

theorem endsName_of_endsExpression (ends : token.endsExpression = true) :
    token.endsName = true := by
  simp only [endsExpression, Bool.and_eq_true] at ends
  exact ends.1

end Token

namespace Parser

variable {parser : Parser} {token : Token} {later : List Token}

theorem current_of_cons (shape : parser.rest = token :: later) : parser.current = token := by
  simp [current, shape]

theorem current_is (shape : parser.rest = token :: later) {kind : TokenKind} {text : String}
    (spelled : token.word = ⟨kind, text⟩) (other : TokenKind) (otherText : String) :
    parser.current.is other otherText = (kind == other && text == otherText) := by
  rw [current_of_cons shape, Token.is_eq_of_word spelled]

theorem current_eq_headD {follow : List Token} {finish : Token} (rest : parser.rest = follow)
    (finishEq : parser.finish = finish) : parser.current = follow.headD finish := by
  rw [current, rest, finishEq]

theorem rest_advance (shape : parser.rest = token :: later) : parser.advance.rest = later := by
  simp [advance, shape]

@[simp]
theorem finish_advance (parser : Parser) : parser.advance.finish = parser.finish := by
  rw [advance]
  split <;> rfl

end Parser

namespace Parse

theorem ensures_expect {parser : Parser} {token : Token} {later : List Token} {mark : String}
    (shape : parser.rest = token :: later) (spelled : token.word = ⟨.punctuation, mark⟩)
    {good : Unit → Parser → Prop} {bad : Parser → Prop} :
    (expect mark).Ensures parser good bad ↔ good () parser.advance := by
  have found : parser.current.isPunctuation mark = true := by
    rw [Parser.current_of_cons shape, Token.isPunctuation, Token.is_eq_of_word spelled]
    simp
  simp [expect, found]

/-- In front of the words, with a token behind them at which they end, the step reads exactly the
words and gives a value of the given look; it is refused if its budget is not enough. -/
def Reads {α β : Type} (look : α → β) (step : Parse α) (enough : Prop) (words : List Word)
    (value : β) (ends : Token → Bool) : Prop :=
  ∀ (parser : Parser) (follow : List Token), Spells words parser.rest follow →
    ends (follow.headD parser.finish) = true →
    step.Ensures parser
      (fun found after => enough ∧ look found = value ∧ after.rest = follow ∧
        after.finish = parser.finish)
      (fun _ => ¬enough)

/-! ### Where operators end -/

theorem ensures_run_of_other {budget : Nat} {left : Node} {parser : Parser}
    {good : Node → Parser → Prop} {bad : Parser → Prop}
    (other : parser.current.operator? BinaryOp.ofSymbol? = none) :
    ((grammar budget).run left).Ensures parser good bad ↔ good left parser := by
  cases budget with
  | zero => simp [grammar, Grammar.exhausted, runBody, other]
  | succ budget => simp [grammar, Grammar.deepen, runBody, other]

theorem ensures_unary_of_primary {budget : Nat} {parser : Parser} {good : Node → Parser → Prop}
    {bad : Parser → Prop} (other : parser.current.kind ≠ .operator) :
    (grammar budget).unary.Ensures parser good bad ↔
      (primary (grammar budget).statement (grammar budget).expression).Ensures parser good bad := by
  have noOperator := Token.operator?_of_kind other UnaryOp.ofSymbol?
  cases budget with
  | zero => simp only [grammar, Grammar.exhausted, unaryBody, ensures_bind, ensures_current,
      noOperator]
  | succ budget => simp only [grammar, Grammar.deepen, unaryBody, ensures_bind, ensures_current,
      noOperator]

/-- An expression ends behind its run of binary operators if no operator comes next. -/
theorem ensures_expressionBody_of_run {unary expression : Parse Node} {run : Node → Parse Node}
    {parser : Parser} {good : Node → Parser → Prop} {bad : Parser → Prop}
    (ended : (unary >>= run).Ensures parser
      (fun found after => after.current.kind ≠ .operator ∧ good found after) bad) :
    (expressionBody unary run expression).Ensures parser good bad := by
  simp only [expressionBody, conditional, ensures_bind]
  rw [← ensures_bind]
  refine ended.imp ?_ fun _ => id
  rintro found after ⟨other, holds⟩
  have question : after.current.isOperator "?" = false := by
    simp [Token.isOperator, Token.is, other]
  simpa only [ensures_current, question, Bool.false_eq_true, if_false, ensures_pure,
    Token.operator?_of_kind other] using holds

end Parse

/-! ### What a piece is read as -/

/-- The word can stand at the beginning of a piece. -/
def Word.opens (word : Word) : Bool :=
  match word.kind with
  | .number | .string | .operator => true
  | .identifier => word.text.toList.head? != some '@'
  | .keyword => word.text == "while"
  | .punctuation => word.text == "("
  | .comment | .newline | .endOfFile => false

namespace Piece

/-- The token ends the piece: behind a conditional or a loop, it is not the colon either. -/
def ends (piece : Piece) (token : Token) : Bool :=
  token.endsExpression && (decide (piece.level.rank ≤ 3) || !token.isPunctuation ":")

/-- The piece has a first word; only loops begin with a keyword. -/
def Opens (piece : Piece) : Prop :=
  ∃ word words, piece.words = word :: words ∧ word.opens = true ∧
    (piece.level ≠ .loop → word.kind ≠ .keyword)

/-- The piece is read by the parser of unary operators. -/
def ReadsUnary (piece : Piece) (node : Node) : Prop :=
  ∀ budget, Parse.Reads Node.unnumbered (grammar budget).unary (piece.charge ≤ budget) piece.words
    node Token.endsName

/-- The piece is read as an operand and a run of binary operators, and the run goes on behind it
with the budget that the operators have left. -/
def ReadsRun (piece : Piece) (node : Node) : Prop :=
  ∀ (budget : Nat) (parser : Parser) (follow : List Token) (good : Node → Parser → Prop)
    (bad : Parser → Prop), Spells piece.words parser.rest follow →
    (follow.headD parser.finish).endsName = true →
    (budget < piece.charge → ∀ after, bad after) →
    (piece.charge ≤ budget → ∀ found after, found.unnumbered = node → after.rest = follow →
      after.finish = parser.finish →
      ((grammar (budget - piece.spine)).run found).Ensures after good bad) →
    ((grammar budget).unary >>= (grammar budget).run).Ensures parser good bad

/-- The piece is read as an expression. -/
def ReadsExpression (piece : Piece) (node : Node) : Prop :=
  ∀ budget, Parse.Reads Node.unnumbered (grammar budget).expression
    (piece.expressionCharge ≤ budget) piece.words node piece.ends

/-- The piece is read as a statement. -/
def ReadsStatement (piece : Piece) (node : Node) : Prop :=
  ∀ budget, Parse.Reads Node.unnumbered (grammar budget).statement
    (piece.statementCharge ≤ budget) piece.words node piece.ends

/-- The piece is read back by the parser of its level and by those of all looser levels. -/
structure Reads (piece : Piece) (node : Node) : Prop where
  opens : piece.Opens
  unary : piece.level.rank ≤ Level.unary.rank → piece.ReadsUnary node
  run : piece.level.rank ≤ Level.binary.rank → piece.ReadsRun node
  expression : piece.ReadsExpression node
  statement : piece.ReadsStatement node

variable {piece : Piece} {node : Node}

theorem endsExpression_of_ends {token : Token} (ends : piece.ends token = true) :
    token.endsExpression = true := by
  simp only [Piece.ends, Bool.and_eq_true] at ends
  exact ends.1

theorem ends_of_endsExpression {token : Token} (tight : piece.level.rank ≤ 3)
    (ends : token.endsExpression = true) : piece.ends token = true := by
  simp [Piece.ends, tight, ends]

/-! ### From a level to the looser ones -/

theorem ReadsUnary.readsRun (reads : piece.ReadsUnary node) (short : piece.spine = 0) :
    piece.ReadsRun node := by
  intro budget parser follow good bad spells ends refused continued
  rw [Parse.ensures_bind]
  refine (reads budget parser follow spells ends).imp ?_ ?_
  · rintro found after ⟨enough, same, rest, finish⟩
    have next := continued enough found after same rest finish
    rwa [short] at next
  · intro after scarce
    exact refused (by omega) after

theorem ReadsRun.readsExpression (reads : piece.ReadsRun node) (notLoop : piece.level ≠ .loop) :
    piece.ReadsExpression node := by
  intro budget parser follow spells ends
  have stops := endsExpression_of_ends ends
  have charge : piece.expressionCharge = piece.charge + 1 := by simp [expressionCharge, notLoop]
  rw [charge]
  cases budget with
  | zero => simp [grammar, Grammar.exhausted]
  | succ budget =>
    simp only [grammar, Grammar.deepen]
    refine Parse.ensures_expressionBody_of_run (reads budget parser follow _ _ spells
      (Token.endsName_of_endsExpression stops) (fun _ _ => by omega) ?_)
    intro enough found after same rest finish
    have other : after.current.kind ≠ .operator := by
      rw [Parser.current_eq_headD rest finish]
      exact Token.kind_of_endsExpression stops
    rw [Parse.ensures_run_of_other (Token.operator?_of_kind other _)]
    exact ⟨other, by omega, same, rest, finish⟩

theorem ReadsExpression.readsStatement (reads : piece.ReadsExpression node)
    (opens : piece.Opens) (notLoop : piece.level ≠ .loop) : piece.ReadsStatement node := by
  intro budget parser follow spells ends
  have charge : piece.statementCharge = piece.expressionCharge + 1 := by
    simp [expressionCharge, statementCharge, notLoop]
  rw [charge]
  cases budget with
  | zero => simp [grammar, Grammar.exhausted]
  | succ budget =>
    -- The first word rules out the statements that are not expressions.
    obtain ⟨word, words, shape, opening, noKeyword⟩ := opens
    have front := spells
    rw [shape] at front
    obtain ⟨token, later, rest, spelled, _⟩ := front
    obtain ⟨kind, text⟩ := Token.word_eq_iff.1 spelled
    have current := Parser.current_of_cons rest
    have keyword (text : String) : parser.current.isKeyword text = false := by
      simp [current, Token.isKeyword, Token.is, kind, noKeyword notLoop]
    have brace : parser.current.isPunctuation "\x7b" = false := by
      rw [current, Token.isPunctuation, Token.is_eq_of_word spelled]
      unfold Word.opens at opening
      cases shape : word.kind <;> simp_all
    simp only [grammar, Grammar.deepen, Parse.statementBody, Parse.ensures_bind,
      Parse.ensures_current, keyword, brace, Bool.false_eq_true, if_false, Nat.add_le_add_iff_right]
    exact reads budget parser follow spells ends

theorem ReadsExpression.reads (reads : piece.ReadsExpression node) (opens : piece.Opens)
    (loose : 3 ≤ piece.level.rank) (notLoop : piece.level ≠ .loop) : piece.Reads node where
  opens := opens
  unary tight := absurd (Nat.le_trans loose tight) (by decide)
  run tight := absurd (Nat.le_trans loose tight) (by decide)
  expression := reads
  statement := reads.readsStatement opens notLoop

theorem ReadsRun.reads (reads : piece.ReadsRun node) (opens : piece.Opens)
    (level : piece.level = .binary) : piece.Reads node where
  opens := opens
  unary tight := by simp [level, Level.rank] at tight
  run _ := reads
  expression := reads.readsExpression (by simp [level])
  statement := (reads.readsExpression (by simp [level])).readsStatement opens (by simp [level])

theorem ReadsUnary.reads (reads : piece.ReadsUnary node) (opens : piece.Opens)
    (short : piece.spine = 0) (notLoop : piece.level ≠ .loop) : piece.Reads node where
  opens := opens
  unary _ := reads
  run _ := reads.readsRun short
  expression := (reads.readsRun short).readsExpression notLoop
  statement := ((reads.readsRun short).readsExpression notLoop).readsStatement opens notLoop

/-! ### Operators -/

theorem opens_append {words : List Word} {level : Level} {charge spine : Nat}
    (opens : piece.Opens) (notLoop : piece.level ≠ .loop) :
    Opens ⟨piece.words ++ words, level, charge, spine⟩ := by
  obtain ⟨word, rest, shape, opening, noKeyword⟩ := opens
  exact ⟨word, rest ++ words, by simp [shape], opening, fun _ => noKeyword notLoop⟩

theorem notLoop_of_rank {level : Level} (tight : level.rank ≤ 3) : level ≠ .loop := by
  rintro rfl
  exact absurd tight (by decide)

theorem reads_unary (op : UnaryOp) {operand : Piece} {node : Node} (reads : operand.Reads node)
    (fits : operand.level.rank ≤ Level.unary.rank) :
    (unary op operand).Reads (.unary op node) := by
  have readsUnary : (unary op operand).ReadsUnary (.unary op node) := by
    intro budget parser follow spells ends
    obtain ⟨token, later, rest, spelled, spells⟩ := spells
    have found : parser.current.operator? UnaryOp.ofSymbol? = some op := by
      rw [Parser.current_of_cons rest, Token.operator?_of_word spelled, UnaryOp.ofSymbol?_symbol]
    cases budget with
    | zero => simp [grammar, Grammar.exhausted, Parse.unaryBody, found, unary]
    | succ budget =>
      simp only [grammar, Grammar.deepen, Parse.unaryBody, Parse.ensures_bind,
        Parse.ensures_current, found, Parse.ensures_advance, Parse.ensures_pure]
      have inner := reads.unary fits budget parser.advance follow
        (by rwa [Parser.rest_advance rest]) (by rwa [Parser.finish_advance])
      refine inner.imp ?_ fun _ scarce => by simpa [unary] using scarce
      rintro operand after ⟨enough, same, rest, finish⟩
      refine ⟨by simpa [unary] using enough, ?_, rest, finish.trans parser.finish_advance⟩
      rw [Node.unnumbered, same]
  exact readsUnary.reads ⟨_, _, rfl, rfl, fun _ => by simp⟩ rfl (by simp [unary])

theorem reads_binary (op : BinaryOp) {left right : Piece} {leftNode rightNode : Node}
    (readsLeft : left.Reads leftNode) (readsRight : right.Reads rightNode)
    (fitsLeft : left.level.rank ≤ Level.binary.rank)
    (fitsRight : right.level.rank ≤ Level.unary.rank) :
    (binary op left right).Reads (.binary op leftNode rightNode) := by
  have readsRun : (binary op left right).ReadsRun (.binary op leftNode rightNode) := by
    intro budget parser follow good bad spells ends refused continued
    obtain ⟨middle, front, token, later, rfl, spelled, back⟩ := spells_append.1 spells
    have charge : (binary op left right).charge =
      max left.charge (left.spine + 1 + right.charge) := rfl
    refine readsLeft.run fitsLeft budget parser _ good bad front
      (Token.endsName_of_word spelled (by simp)) (fun short => refused (by omega)) ?_
    intro enough found after same rest finish
    have operator : after.current.operator? BinaryOp.ofSymbol? = some op := by
      rw [Parser.current_of_cons rest, Token.operator?_of_word spelled, BinaryOp.ofSymbol?_symbol]
    -- Each operator on the left has cost the run one level, so this one may be out of budget.
    cases remaining : budget - left.spine with
    | zero =>
      simp only [grammar, Grammar.exhausted, Parse.runBody, Parse.ensures_bind,
        Parse.ensures_current, operator, Parse.ensures_refuse]
      exact refused (by omega) _
    | succ below =>
      simp only [grammar, Grammar.deepen, Parse.runBody, Parse.ensures_bind,
        Parse.ensures_current, operator, Parse.ensures_advance]
      have operand := readsRight.unary fitsRight below after.advance follow
        (by rwa [Parser.rest_advance rest]) (by rwa [Parser.finish_advance, finish])
      refine operand.imp ?_ fun last scarce => refused (by omega) last
      rintro rightFound last ⟨enoughRight, sameRight, restRight, finishRight⟩
      have next := continued (by omega) (.binary op found rightFound) last
        (by rw [Node.unnumbered, same, sameRight]) restRight
        (by rw [finishRight, Parser.finish_advance, finish])
      have left : budget - (binary op left right).spine = below := by
        simp only [binary]
        omega
      rwa [left] at next
  exact readsRun.reads
    (opens_append readsLeft.opens (notLoop_of_rank (Nat.le_trans fitsLeft (by decide)))) rfl

/-- A run of binary operators ends at an operator of another kind. -/
theorem Reads.ensures_run (reads : piece.Reads node) (fits : piece.level.rank ≤ Level.binary.rank)
    {budget : Nat} {parser : Parser} {token : Token} {later : List Token} {symbol : String}
    (spells : Spells piece.words parser.rest (token :: later))
    (spelled : token.word = ⟨.operator, symbol⟩) (other : BinaryOp.ofSymbol? symbol = none)
    {good : Node → Parser → Prop} {bad : Parser → Prop}
    (refused : budget < piece.charge → ∀ after, bad after)
    (continued : piece.charge ≤ budget → ∀ found after, found.unnumbered = node →
      after.rest = token :: later → after.finish = parser.finish → good found after) :
    ((grammar budget).unary >>= (grammar budget).run).Ensures parser good bad := by
  refine reads.run fits budget parser _ good bad spells
    (Token.endsName_of_word spelled (by simp)) refused ?_
  intro enough found after same rest finish
  have notBinary : after.current.operator? BinaryOp.ofSymbol? = none := by
    rw [Parser.current_of_cons rest, Token.operator?_of_word spelled, other]
  rw [Parse.ensures_run_of_other notBinary]
  exact continued enough found after same rest finish

theorem reads_assign (op : AssignOp) {target value : Piece} {targetNode valueNode : Node}
    (readsTarget : target.Reads targetNode) (readsValue : value.Reads valueNode)
    (fitsTarget : target.level.rank ≤ Level.binary.rank)
    (fitsValue : value.level.rank ≤ Level.assignment.rank) :
    (assign op target value).Reads (.assign op targetNode valueNode) := by
  have readsExpression :
      (assign op target value).ReadsExpression (.assign op targetNode valueNode) := by
    intro budget parser follow spells ends
    have stops := endsExpression_of_ends ends
    obtain ⟨middle, front, token, later, rfl, spelled, back⟩ := spells_append.1 spells
    have charge : (assign op target value).expressionCharge =
      max target.charge value.expressionCharge + 1 := rfl
    rw [charge]
    cases budget with
    | zero => simp [grammar, Grammar.exhausted]
    | succ budget =>
      simp only [grammar, Grammar.deepen, Parse.expressionBody, Parse.conditional,
        Parse.ensures_bind]
      rw [← Parse.ensures_bind]
      refine readsTarget.ensures_run fitsTarget front spelled (by cases op <;> rfl)
        (fun _ _ => by omega) ?_
      intro enough found after same rest finish
      have question : after.current.isOperator "?" = false := by
        rw [Parser.current_of_cons rest, Token.isOperator, Token.is_eq_of_word spelled]
        cases op <;> rfl
      have operator : after.current.operator? AssignOp.ofSymbol? = some op := by
        rw [Parser.current_of_cons rest, Token.operator?_of_word spelled,
          AssignOp.ofSymbol?_symbol]
      simp only [Parse.ensures_current, question, Bool.false_eq_true, if_false,
        Parse.ensures_pure, operator, Parse.ensures_bind, Parse.ensures_advance]
      have inner := readsValue.expression budget after.advance follow
        (by rwa [Parser.rest_advance rest])
        (by rw [Parser.finish_advance, finish]; exact ends_of_endsExpression fitsValue stops)
      refine inner.imp ?_ fun _ scarce => by omega
      rintro valueFound last ⟨enoughValue, sameValue, restValue, finishValue⟩
      refine ⟨by omega, by rw [Node.unnumbered, same, sameValue], restValue, ?_⟩
      rw [finishValue, Parser.finish_advance, finish]
  exact readsExpression.reads
    (opens_append readsTarget.opens (notLoop_of_rank (Nat.le_trans fitsTarget (by decide))))
    (Nat.le_refl 3) (by simp [assign])

/-! ### Conditionals and loops -/

/-- Behind the question mark of a conditional the first branch is read, and what comes behind it
decides whether there is a second one. -/
theorem Reads.ensures_conditional {condition thenBranch : Piece} {conditionNode thenNode : Node}
    (readsCondition : condition.Reads conditionNode) (readsThen : thenBranch.Reads thenNode)
    (fitsCondition : condition.level.rank ≤ Level.binary.rank) {budget : Nat} {parser : Parser}
    {question : Token} {later follow : List Token}
    (front : Spells condition.words parser.rest (question :: later))
    (spelled : question.word = ⟨.operator, "?"⟩) (branch : Spells thenBranch.words later follow)
    (ends : thenBranch.ends (follow.headD parser.finish) = true)
    {good : Node → Parser → Prop} {bad : Parser → Prop}
    (refused : budget < max condition.charge thenBranch.expressionCharge → ∀ after, bad after)
    (continued : max condition.charge thenBranch.expressionCharge ≤ budget →
      ∀ (found thenFound : Node) (after : Parser), found.unnumbered = conditionNode →
      thenFound.unnumbered = thenNode → after.rest = follow → after.finish = parser.finish →
      if after.current.isPunctuation ":" then
        (grammar budget).expression.Ensures after.advance
          (fun elseFound last => good (.ifThenElse found thenFound elseFound) last) bad
      else good (.ifThen found thenFound) after) :
    (Parse.conditional (grammar budget).unary (grammar budget).run
      (grammar budget).expression).Ensures parser good bad := by
  simp only [Parse.conditional, Parse.ensures_bind]
  rw [← Parse.ensures_bind]
  refine readsCondition.ensures_run fitsCondition front spelled rfl
    (fun scarce => refused (by omega)) ?_
  intro enough found after same rest finish
  have isQuestion : after.current.isOperator "?" = true := Parser.current_is rest spelled _ _
  simp only [Parse.ensures_current, isQuestion, if_true, Parse.ensures_bind,
    Parse.ensures_advance, Parse.ensures_eat, Bool.false_eq_true, if_false, Parse.ensures_pure]
  have inner := readsThen.expression budget after.advance follow
    (by rwa [Parser.rest_advance rest]) (by rwa [Parser.finish_advance, finish])
  refine inner.imp ?_ fun last scarce => refused (by omega) last
  rintro thenFound last ⟨enoughThen, sameThen, restThen, finishThen⟩
  exact continued (by omega) found thenFound last same sameThen restThen
    (by rw [finishThen, Parser.finish_advance, finish])

theorem reads_ifThen {condition thenBranch : Piece} {conditionNode thenNode : Node}
    (readsCondition : condition.Reads conditionNode) (readsThen : thenBranch.Reads thenNode)
    (fitsCondition : condition.level.rank ≤ Level.binary.rank)
    (fitsThen : thenBranch.level.rank ≤ Level.assignment.rank) :
    (ifThen condition thenBranch).Reads (.ifThen conditionNode thenNode) := by
  have readsExpression :
      (ifThen condition thenBranch).ReadsExpression (.ifThen conditionNode thenNode) := by
    intro budget parser follow spells ends
    have stops := endsExpression_of_ends ends
    have noColon : (follow.headD parser.finish).isPunctuation ":" = false := by
      rw [Piece.ends, Bool.and_eq_true] at ends
      simpa [ifThen, Level.rank] using ends.2
    obtain ⟨_, front, question, later, rfl, spelled, branch⟩ := spells_append.1 spells
    have charge : (ifThen condition thenBranch).expressionCharge =
      max condition.charge thenBranch.expressionCharge + 1 := rfl
    rw [charge]
    cases budget with
    | zero => simp [grammar, Grammar.exhausted]
    | succ budget =>
      simp only [grammar, Grammar.deepen, Parse.expressionBody, Parse.ensures_bind]
      refine readsCondition.ensures_conditional readsThen fitsCondition front spelled branch
        (ends_of_endsExpression fitsThen stops) (fun _ _ => by omega) ?_
      intro enough found thenFound after same sameThen rest finish
      have current := Parser.current_eq_headD rest finish
      have noAssign : after.current.operator? AssignOp.ofSymbol? = none := by
        rw [current]
        exact Token.operator?_of_kind (Token.kind_of_endsExpression stops) _
      rw [← current] at noColon
      simp only [noColon, Bool.false_eq_true, if_false, Parse.ensures_current, noAssign,
        Parse.ensures_pure]
      exact ⟨by omega, by rw [Node.unnumbered, same, sameThen], rest, finish⟩
  exact readsExpression.reads
    (opens_append readsCondition.opens (notLoop_of_rank (Nat.le_trans fitsCondition (by decide))))
    (by simp [ifThen, Level.rank]) (by simp [ifThen])

theorem reads_ifThenElse {condition thenBranch elseBranch : Piece}
    {conditionNode thenNode elseNode : Node} (readsCondition : condition.Reads conditionNode)
    (readsThen : thenBranch.Reads thenNode) (readsElse : elseBranch.Reads elseNode)
    (fitsCondition : condition.level.rank ≤ Level.binary.rank)
    (fitsThen : thenBranch.level.rank ≤ Level.assignment.rank)
    (fitsElse : elseBranch.level.rank ≤ Level.assignment.rank) :
    (ifThenElse condition thenBranch elseBranch).Reads
      (.ifThenElse conditionNode thenNode elseNode) := by
  have readsExpression : (ifThenElse condition thenBranch elseBranch).ReadsExpression
      (.ifThenElse conditionNode thenNode elseNode) := by
    intro budget parser follow spells ends
    have stops := endsExpression_of_ends ends
    obtain ⟨_, front, question, later, rfl, spelled, back⟩ := spells_append.1 spells
    obtain ⟨_, branch, colon, lastPart, rfl, colonSpelled, back⟩ := spells_append.1 back
    have charge : (ifThenElse condition thenBranch elseBranch).expressionCharge =
      max condition.charge (max thenBranch.expressionCharge elseBranch.expressionCharge) + 1 := rfl
    rw [charge]
    have colonEnds : colon.endsExpression = true := by
      simp [Token.endsExpression, Token.endsName_of_word colonSpelled,
        (Token.word_eq_iff.1 colonSpelled).1]
    cases budget with
    | zero => simp [grammar, Grammar.exhausted]
    | succ budget =>
      simp only [grammar, Grammar.deepen, Parse.expressionBody, Parse.ensures_bind]
      refine readsCondition.ensures_conditional readsThen fitsCondition front spelled branch
        (ends_of_endsExpression fitsThen colonEnds) (fun _ _ => by omega) ?_
      intro enough found thenFound after same sameThen rest finish
      have isColon : after.current.isPunctuation ":" = true :=
        Parser.current_is rest colonSpelled _ _
      have finishAfter : after.advance.finish = parser.finish := by
        rw [Parser.finish_advance, finish]
      rw [if_pos isColon]
      have other := readsElse.expression budget after.advance follow
        (by rwa [Parser.rest_advance rest])
        (by rw [finishAfter]; exact ends_of_endsExpression fitsElse stops)
      refine other.imp ?_ fun _ scarce => by omega
      rintro elseFound last ⟨enoughElse, sameElse, restElse, finishElse⟩
      have noAssign : last.current.operator? AssignOp.ofSymbol? = none := by
        rw [Parser.current_eq_headD restElse (finishElse.trans finishAfter)]
        exact Token.operator?_of_kind (Token.kind_of_endsExpression stops) _
      simp only [Parse.ensures_current, noAssign, Parse.ensures_pure]
      refine ⟨by omega, ?_, restElse, finishElse.trans finishAfter⟩
      rw [Node.unnumbered, same, sameThen, sameElse]
  exact readsExpression.reads
    (opens_append readsCondition.opens (notLoop_of_rank (Nat.le_trans fitsCondition (by decide))))
    (by simp [ifThenElse, Level.rank]) (by simp [ifThenElse])

/-- A closing mark or a separator ends every piece. -/
theorem ends_of_mark (piece : Piece) {token : Token} {mark : String}
    (spelled : token.word = ⟨.punctuation, mark⟩)
    (other : (mark == "(" || mark == "[" || mark == ":") = false) : piece.ends token = true := by
  simp only [Bool.or_eq_false_iff] at other
  have endsName := Token.endsName_of_word spelled (by simp [other.1])
  have noColon : token.isPunctuation ":" = false := by
    rw [Token.isPunctuation, Token.is_eq_of_word spelled]
    simp [other.2]
  simp [Piece.ends, Token.endsExpression, endsName, noColon, (Token.word_eq_iff.1 spelled).1]

theorem readsStatement_whileLoop {condition body : Piece} {conditionNode bodyNode : Node}
    (readsCondition : condition.Reads conditionNode) (readsBody : body.Reads bodyNode)
    (fitsBody : body.level.rank ≤ Level.assignment.rank) :
    (whileLoop condition body).ReadsStatement (.whileLoop conditionNode bodyNode) := by
  intro budget parser follow spells ends
  have stops := endsExpression_of_ends ends
  obtain ⟨keyword, _, rest, spelled, opening, _, rfl, openingSpelled, spells⟩ := spells
  obtain ⟨_, front, closing, later, rfl, closingSpelled, back⟩ := spells_append.1 spells
  have charge : (whileLoop condition body).statementCharge =
    max condition.expressionCharge body.statementCharge + 1 := rfl
  rw [charge]
  cases budget with
  | zero => simp [grammar, Grammar.exhausted]
  | succ budget =>
    have isIf : parser.current.isKeyword "if" = false :=
      Parser.current_is rest spelled _ _
    have isWhile : parser.current.isKeyword "while" = true :=
      Parser.current_is rest spelled _ _
    have restKeyword := Parser.rest_advance rest
    have restOpening := Parser.rest_advance restKeyword
    simp only [grammar, Grammar.deepen, Parse.statementBody, Parse.ensures_bind,
      Parse.ensures_current, isIf, isWhile, Bool.false_eq_true, if_false, if_true,
      Parse.whileStatement, Parse.ensures_advance]
    rw [Parse.ensures_expect restKeyword openingSpelled]
    have inner := readsCondition.expression budget parser.advance.advance (closing :: later)
      (by rwa [restOpening]) (ends_of_mark condition closingSpelled (by decide))
    refine inner.imp ?_ fun _ scarce => by omega
    rintro conditionFound after ⟨enough, same, restAfter, finish⟩
    rw [Parse.ensures_expect restAfter closingSpelled]
    have finishAfter : after.advance.finish = parser.finish := by
      rw [Parser.finish_advance, finish, Parser.finish_advance, Parser.finish_advance]
    have inside := readsBody.statement budget after.advance follow
      (by rwa [Parser.rest_advance restAfter])
      (by rw [finishAfter]; exact ends_of_endsExpression fitsBody stops)
    refine inside.imp ?_ fun _ scarce => by omega
    rintro bodyFound last ⟨enoughBody, sameBody, restLast, finishLast⟩
    exact ⟨by omega, by rw [Node.unnumbered, same, sameBody], restLast,
      finishLast.trans finishAfter⟩

theorem reads_whileLoop {condition body : Piece} {conditionNode bodyNode : Node}
    (readsCondition : condition.Reads conditionNode) (readsBody : body.Reads bodyNode)
    (fitsBody : body.level.rank ≤ Level.assignment.rank) :
    (whileLoop condition body).Reads (.whileLoop conditionNode bodyNode) where
  opens := ⟨_, _, rfl, rfl, fun notLoop => absurd rfl notLoop⟩
  unary tight := absurd tight (by simp [whileLoop, Level.rank])
  run tight := absurd tight (by simp [whileLoop, Level.rank])
  statement := readsStatement_whileLoop readsCondition readsBody fitsBody
  expression := by
    intro budget parser follow spells ends
    have stops := endsExpression_of_ends ends
    have charge : (whileLoop condition body).expressionCharge =
      (whileLoop condition body).statementCharge + 1 := rfl
    rw [charge]
    obtain ⟨keyword, later, rest, spelled, _⟩ := id spells
    obtain ⟨kind, text⟩ := Token.word_eq_iff.1 spelled
    have current := Parser.current_of_cons rest
    cases budget with
    | zero => simp [grammar, Grammar.exhausted]
    | succ budget =>
      simp only [grammar, Grammar.deepen]
      refine Parse.ensures_expressionBody_of_run ?_
      rw [Parse.ensures_bind, Parse.ensures_unary_of_primary (by simp [current, kind])]
      simp only [Parse.primary, Parse.ensures_bind, Parse.ensures_current, current, kind, text,
        beq_self_eq_true, Bool.or_true, if_true]
      refine (readsStatement_whileLoop readsCondition readsBody fitsBody budget parser follow
        spells ends).imp ?_ fun _ scarce => by omega
      rintro found after ⟨enough, same, restAfter, finish⟩
      have other : after.current.kind ≠ .operator := by
        rw [Parser.current_eq_headD restAfter finish]
        exact Token.kind_of_endsExpression stops
      rw [Parse.ensures_run_of_other (Token.operator?_of_kind other _)]
      exact ⟨other, by omega, same, restAfter, finish⟩

end Piece

end EffectScript.Language
