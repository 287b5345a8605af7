import EffectScript.Proofs.GrammarLaw

/-!
# Where a section ends

To the grammar the marker of a section looks like the end of the source: no parser of the grammar
tells them apart, and none moves past either.  A parser that stands in one section among others
therefore moves in step with a parser that has this section alone, whatever the tokens are, and the
two build the same trees up to the numbers of names.
-/

namespace EffectScript.Language

/-! ### Tokens where a section ends -/

namespace Token

/-- The token ends the section before it: the marker of the next one, or the end of the source. -/
def endsSection (token : Token) : Bool :=
  token.isSectionMarker || token.isEndOfFile

/-- The same token, or two tokens that end a section. -/
def Alike (token other : Token) : Prop :=
  token = other ∨ token.endsSection = true ∧ other.endsSection = true

theorem is_of_endsSection {token : Token} (ends : token.endsSection = true) (kind : TokenKind)
    (inner : kind ≠ .identifier ∧ kind ≠ .endOfFile) (text : String) :
    token.is kind text = false := by
  have kinds : token.kind = .identifier ∨ token.kind = .endOfFile := by
    simp only [endsSection, isSectionMarker, isEndOfFile, Bool.or_eq_true, Bool.and_eq_true,
      beq_iff_eq] at ends
    exact ends.imp And.left id
  rcases kinds with kindEq | kindEq
  · simp [is, kindEq, inner.1.symm]
  · simp [is, kindEq, inner.2.symm]

theorem operator?_of_endsSection {α : Type} {token : Token} (ends : token.endsSection = true)
    (ofSymbol? : String → Option α) : token.operator? ofSymbol? = none := by
  have other := is_of_endsSection ends .operator (by decide) token.text
  simp only [is, beq_self_eq_true, Bool.and_true] at other
  simp [operator?, other]

namespace Alike

variable {token other : Token} (alike : token.Alike other)
include alike

theorem is_eq {kind : TokenKind} (inner : kind ≠ .identifier ∧ kind ≠ .endOfFile)
    (text : String) : token.is kind text = other.is kind text := by
  rcases alike with rfl | ⟨ends, otherEnds⟩
  · rfl
  · rw [is_of_endsSection ends kind inner, is_of_endsSection otherEnds kind inner]

theorem isPunctuation_eq (text : String) :
    token.isPunctuation text = other.isPunctuation text :=
  alike.is_eq (by decide) text

theorem isKeyword_eq (text : String) : token.isKeyword text = other.isKeyword text :=
  alike.is_eq (by decide) text

theorem isOperator_eq (text : String) : token.isOperator text = other.isOperator text :=
  alike.is_eq (by decide) text

theorem operator?_eq {α : Type} (ofSymbol? : String → Option α) :
    token.operator? ofSymbol? = other.operator? ofSymbol? := by
  rcases alike with rfl | ⟨ends, otherEnds⟩
  · rfl
  · rw [operator?_of_endsSection ends, operator?_of_endsSection otherEnds]

end Alike

end Token

/-! ### Two parsers in step -/

/-- `alone` has only the tokens of one section; `within` has the same ones in front of `tail`, which
is empty or begins with the marker of another section. -/
structure Parser.Beside (tail : List Token) (alone within : Parser) : Prop where
  rest_eq : within.rest = alone.rest ++ tail
  unmarked : ∀ token ∈ alone.rest, token.isSectionMarker = false
  marked : ∀ token ∈ tail.head?, token.isSectionMarker = true
  alone_ends : alone.finish.isEndOfFile = true
  within_ends : within.finish.isEndOfFile = true

namespace Parser.Beside

variable {tail : List Token} {alone within : Parser} (beside : Beside tail alone within)
include beside

theorem current_ends (remaining : alone.rest = []) : within.current.endsSection = true := by
  have rest := beside.rest_eq
  rw [remaining, List.nil_append] at rest
  cases shape : tail with
  | nil => simp [Parser.current, rest, shape, Token.endsSection, beside.within_ends]
  | cons marker tokens =>
    have opens := beside.marked marker (by simp [shape])
    simp [Parser.current, rest, shape, Token.endsSection, opens]

theorem current_alike : alone.current.Alike within.current := by
  cases remaining : alone.rest with
  | nil =>
    refine .inr ⟨?_, beside.current_ends remaining⟩
    simp [Parser.current, remaining, Token.endsSection, beside.alone_ends]
  | cons token rest =>
    refine .inl ?_
    simp [Parser.current, beside.rest_eq, remaining]

theorem current_eq (remaining : alone.rest ≠ []) : alone.current = within.current := by
  obtain ⟨token, rest, shape⟩ := List.exists_cons_of_ne_nil remaining
  simp [Parser.current, beside.rest_eq, shape]

theorem atBoundary_alone : alone.atBoundary = alone.rest.isEmpty := by
  cases remaining : alone.rest with
  | nil => simp [Parser.atBoundary, Parser.atEnd, remaining]
  | cons token rest =>
    have plain := beside.unmarked token (by simp [remaining])
    simp [Parser.atBoundary, Parser.atEnd, Parser.current, remaining, plain]

theorem atBoundary_within : within.atBoundary = alone.rest.isEmpty := by
  cases remaining : alone.rest with
  | nil =>
    have rest := beside.rest_eq
    rw [remaining, List.nil_append] at rest
    cases shape : tail with
    | nil => simp [Parser.atBoundary, Parser.atEnd, rest, shape]
    | cons marker tokens =>
      have opens := beside.marked marker (by simp [shape])
      simp [Parser.atBoundary, Parser.current, rest, shape, opens]
  | cons token rest =>
    have plain := beside.unmarked token (by simp [remaining])
    simp [Parser.atBoundary, Parser.atEnd, Parser.current, beside.rest_eq, remaining, plain]

/-- A token that the grammar recognizes belongs to the section. -/
theorem rest_ne_nil (recognized : alone.current.endsSection = false) : alone.rest ≠ [] := by
  intro remaining
  simp [Parser.current, remaining, Token.endsSection, beside.alone_ends] at recognized

theorem rest_ne_nil_of_is {kind : TokenKind} {text : String}
    (inner : kind ≠ .identifier ∧ kind ≠ .endOfFile) (found : alone.current.is kind text = true) :
    alone.rest ≠ [] := by
  refine beside.rest_ne_nil (Bool.eq_false_iff.2 fun ends => ?_)
  rw [Token.is_of_endsSection ends kind inner] at found
  contradiction

theorem rest_ne_nil_of_operator {α : Type} {ofSymbol? : String → Option α} {op : α}
    (found : alone.current.operator? ofSymbol? = some op) : alone.rest ≠ [] := by
  refine beside.rest_ne_nil (Bool.eq_false_iff.2 fun ends => ?_)
  rw [Token.operator?_of_endsSection ends] at found
  contradiction

/-! ### Moves keep the parsers in step -/

theorem advance (remaining : alone.rest ≠ []) : Beside tail alone.advance within.advance := by
  obtain ⟨token, rest, shape⟩ := List.exists_cons_of_ne_nil remaining
  have unmarked := beside.unmarked
  rw [shape] at unmarked
  constructor
  · simp [Parser.advance, beside.rest_eq, shape]
  · simp only [Parser.advance, shape]
    exact fun other member => unmarked other (List.mem_cons_of_mem token member)
  · exact beside.marked
  · simpa [Parser.advance, shape] using beside.alone_ends
  · simpa [Parser.advance, beside.rest_eq, shape] using beside.within_ends

theorem note (message other : String) :
    Beside tail (alone.note message) (within.note other) :=
  ⟨beside.rest_eq, beside.unmarked, beside.marked, beside.alone_ends, beside.within_ends⟩

theorem following_alike (remaining : alone.rest ≠ []) :
    alone.following.Alike within.following := by
  have next := (beside.advance remaining).current_alike
  obtain ⟨token, rest, shape⟩ := List.exists_cons_of_ne_nil remaining
  simpa [Parser.advance, Parser.current, Parser.following, beside.rest_eq, shape] using next

theorem skipBeforeElse : Beside tail alone.skipBeforeElse within.skipBeforeElse := by
  by_cases separator : alone.current.isPunctuation ";" = true
  · have remaining := beside.rest_ne_nil_of_is (by decide) separator
    have test : within.current.isPunctuation ";" = true := by
      rw [← beside.current_alike.isPunctuation_eq, separator]
    simp only [Parser.skipBeforeElse, separator, test, Bool.true_and,
      ← (beside.following_alike remaining).isKeyword_eq]
    split
    · exact beside.advance remaining
    · exact beside
  · have test : ¬within.current.isPunctuation ";" = true := by
      rwa [← beside.current_alike.isPunctuation_eq]
    simpa [Parser.skipBeforeElse, separator, test] using beside

omit beside in
theorem skipSeparators {alone within : Parser} (beside : Beside tail alone within) :
    Beside tail alone.skipSeparators within.skipSeparators := by
  induction remaining : alone.rest generalizing alone within with
  | nil =>
    have unmoved : within.skipSeparators = within := by
      cases shape : within.rest with
      | nil => exact Parser.skipSeparators_of_nil shape
      | cons token rest =>
        have ends := beside.current_ends remaining
        have other := Token.is_of_endsSection ends .punctuation (by decide) ";"
        refine Parser.skipSeparators_of_not shape ?_
        simp only [Parser.current, shape, List.headD_cons] at other
        simp [Token.isPunctuation, other]
    rwa [Parser.skipSeparators_of_nil remaining, unmoved]
  | cons token rest ih =>
    have shape : within.rest = token :: (rest ++ tail) := by simp [beside.rest_eq, remaining]
    by_cases separator : token.isPunctuation ";"
    · rw [Parser.skipSeparators_of_cons remaining separator,
        Parser.skipSeparators_of_cons shape separator]
      exact ih (beside.advance (by simp [remaining])) (by simp [Parser.advance, remaining])
    · rwa [Parser.skipSeparators_of_not remaining separator,
        Parser.skipSeparators_of_not shape separator]

theorem stops_eq (stops : Token → Bool) :
    (alone.atBoundary || stops alone.current) = (within.atBoundary || stops within.current) := by
  rw [beside.atBoundary_alone, beside.atBoundary_within]
  cases remaining : alone.rest with
  | nil => rfl
  | cons token rest => rw [beside.current_eq (by simp [remaining])]

/-- Since nothing moves past the section, the parsers are stuck in the same rounds. -/
theorem ensureProgress {before companion : Parser} (started : Beside tail before companion)
    (remaining : before.rest ≠ []) (consumes : before.Consumes alone)
    (companionConsumes : companion.Consumes within) :
    Beside tail (alone.ensureProgress before.consumed)
      (within.ensureProgress companion.consumed) := by
  have balance := consumes.balance
  have companionBalance := companionConsumes.balance
  have positive := List.length_pos_iff.2 remaining
  rw [beside.rest_eq, started.rest_eq, List.length_append, List.length_append] at companionBalance
  rw [Parser.ensureProgress, Parser.ensureProgress]
  -- Both counts differ from those at the start by the same number of tokens.
  by_cases stuck : alone.consumed = before.consumed
  · have companionStuck : within.consumed = companion.consumed := by omega
    have unfinished : alone.rest ≠ [] := by
      intro finished
      simp only [finished, List.length_nil] at balance
      omega
    have companionUnfinished : within.rest ≠ [] := by simp [beside.rest_eq, unfinished]
    simpa [stuck, companionStuck, Parser.atEnd, unfinished, companionUnfinished]
      using (beside.advance unfinished).note _ _
  · have companionMoved : within.consumed ≠ companion.consumed := by omega
    simpa [stuck, companionMoved] using beside

end Parser.Beside

/-! ### Steps that keep the parsers in step -/

namespace Parse

open Language.Parser (Beside)

variable {α β : Type} {tail : List Token}

/-- Two values of the same look, with parsers in step. -/
def Matching (tail : List Token) (look : α → β) (value : α) (after : Parser) (counterpart : α)
    (companion : Parser) : Prop :=
  look value = look counterpart ∧ Beside tail after companion

/-- From parsers in step, two steps lead to matching values, or are both refused. -/
def InStep (tail : List Token) (look : α → β) (one other : Parse α) : Prop :=
  ∀ alone within, Beside tail alone within →
    Together one alone other within (Matching tail look)

theorem InStep.next {γ δ : Type} {look : α → β} {one other : Parse α}
    (inStep : InStep tail look one other) {alone within : Parser}
    (beside : Beside tail alone within) {next : α → Parse γ} {follow : α → Parse δ}
    {good : γ → Parser → δ → Parser → Prop}
    (rest : ∀ value after counterpart companion, look value = look counterpart →
      Beside tail after companion →
      Together (next value) after (follow counterpart) companion good) :
    Together (one >>= next) alone (other >>= follow) within good :=
  (inStep alone within beside).bind fun value after counterpart companion both =>
    rest value after counterpart companion both.1 both.2

theorem inStep_eat (mark : String) : InStep tail id (eat mark) (eat mark) := by
  intro alone within beside
  rw [eat, together_current_bind, ← beside.current_alike.isPunctuation_eq]
  split
  · rename_i found
    exact ⟨rfl, beside.advance (beside.rest_ne_nil_of_is (by decide) found)⟩
  · exact ⟨rfl, beside⟩

theorem inStep_expect (mark : String) : InStep tail id (expect mark) (expect mark) := by
  intro alone within beside
  rw [expect]
  refine (inStep_eat mark).next beside fun found after counterpart companion same beside => ?_
  cases found <;> cases same
  · exact ⟨rfl, beside.note _ _⟩
  · exact ⟨rfl, beside⟩

/-! ### Repetitions -/

/-- Each repetition needs one round for each remaining token at most, so that a greater allowance
makes no difference. -/
theorem together_statementsWithin {statement : Parse Node}
    (consumes : MoveLaw.consumption.Governs Node.mentions statement)
    (inStep : InStep tail Node.unnumbered statement statement) (stops : Token → Bool)
    (allowance other : List Token) {alone within : Parser} (beside : Beside tail alone within)
    (enough : alone.rest.length < allowance.length)
    (otherEnough : within.rest.length < other.length) :
    Together (statementsWithin statement stops allowance) alone
      (statementsWithin statement stops other) within (Matching tail unnumberedAll) := by
  induction allowance generalizing other alone within with
  | nil => simp at enough
  | cons _ allowance ih =>
    cases other with
    | nil => simp at otherEnough
    | cons _ other =>
      have skipped := beside.skipSeparators
      have shorter := (Parser.Consumes.skipSeparators alone).length_le
      have otherShorter := (Parser.Consumes.skipSeparators within).length_le
      simp only [List.length_cons] at enough otherEnough
      simp only [statementsWithin, together_modify_bind, together_inspect_bind,
        ← skipped.stops_eq stops]
      split
      · exact ⟨rfl, skipped⟩
      · rename_i unfinished
        have remaining : alone.skipSeparators.rest ≠ [] := by
          rw [skipped.atBoundary_alone] at unfinished
          simp_all
        simp only [together_inspect_bind]
        refine ((inStep _ _ skipped).ensuring (consumes _) (consumes _)).bind ?_
        rintro node after counterpart companion ⟨⟨same, beside⟩, consumed, otherConsumed⟩
        have fewer := Parser.Consumes.ensureProgress_length consumed remaining
        have otherFewer := Parser.Consumes.ensureProgress_length otherConsumed
          (by simp [skipped.rest_eq, remaining])
        rw [together_modify_bind]
        refine (ih other (beside.ensureProgress skipped remaining consumed otherConsumed)
          (by omega) (by omega)).bind ?_
        rintro nodes after counterparts companion ⟨sameRest, beside⟩
        exact ⟨by simp only [unnumberedAll, same, sameRest], beside⟩

theorem together_argumentsWithin {expression : Parse Node}
    (consumes : MoveLaw.consumption.Governs Node.mentions expression)
    (inStep : InStep tail Node.unnumbered expression expression) (allowance other : List Token)
    {alone within : Parser} (beside : Beside tail alone within)
    (enough : alone.rest.length < allowance.length)
    (otherEnough : within.rest.length < other.length) :
    Together (argumentsWithin expression allowance) alone
      (argumentsWithin expression other) within (Matching tail unnumberedAll) := by
  induction allowance generalizing other alone within with
  | nil => simp at enough
  | cons _ allowance ih =>
    cases other with
    | nil => simp at otherEnough
    | cons _ other =>
      simp only [List.length_cons] at enough otherEnough
      simp only [argumentsWithin, together_inspect_bind, Bool.or_comm _ (Parser.atBoundary _),
        ← beside.stops_eq fun token => token.isPunctuation ")"]
      split
      · exact ⟨rfl, beside⟩
      · rename_i unfinished
        have remaining : alone.rest ≠ [] := by
          rw [beside.atBoundary_alone] at unfinished
          simp_all
        simp only [together_inspect_bind]
        refine ((inStep _ _ beside).ensuring (consumes _) (consumes _)).bind ?_
        rintro node after counterpart companion ⟨⟨same, inside⟩, consumed, otherConsumed⟩
        have eating : MoveLaw.consumption.GovernsSilently (eat ",") := MoveLaw.governs_eat ","
        refine ((inStep_eat "," _ _ inside).ensuring (eating _) (eating _)).bind ?_
        rintro _ last _ lastCompanion ⟨⟨_, passed⟩, eaten, otherEaten⟩
        have spent := consumed.trans eaten
        have otherSpent := otherConsumed.trans otherEaten
        have fewer := Parser.Consumes.ensureProgress_length spent remaining
        have otherFewer := Parser.Consumes.ensureProgress_length otherSpent
          (by simp [beside.rest_eq, remaining])
        rw [together_modify_bind]
        refine (ih other (passed.ensureProgress beside remaining spent otherSpent)
          (by omega) (by omega)).bind ?_
        rintro nodes after counterparts companion ⟨sameRest, beside⟩
        exact ⟨by simp only [unnumberedAll, same, sameRest], beside⟩

section Levels

variable {statement expression : Parse Node}

theorem inStep_statements (consumes : MoveLaw.consumption.Governs Node.mentions statement)
    (inStep : InStep tail Node.unnumbered statement statement) (stops : Token → Bool) :
    InStep tail unnumberedAll (statements statement stops) (statements statement stops) := by
  intro alone within beside
  rw [statements, together_inspect_bind]
  exact together_statementsWithin consumes inStep stops _ _ beside
    (by simp [Parser.allowance]) (by simp [Parser.allowance])

theorem inStep_arguments (consumes : MoveLaw.consumption.Governs Node.mentions expression)
    (inStep : InStep tail Node.unnumbered expression expression) :
    InStep tail unnumberedAll (arguments expression) (arguments expression) := by
  intro alone within beside
  rw [arguments, together_inspect_bind]
  exact together_argumentsWithin consumes inStep _ _ beside
    (by simp [Parser.allowance]) (by simp [Parser.allowance])

/-! ### Statements and primaries -/

theorem inStep_elsePart (inStep : InStep tail Node.unnumbered statement statement)
    {condition thenBranch otherCondition otherBranch : Node}
    (sameCondition : condition.unnumbered = otherCondition.unnumbered)
    (sameBranch : thenBranch.unnumbered = otherBranch.unnumbered) :
    InStep tail Node.unnumbered (elsePart statement condition thenBranch)
      (elsePart statement otherCondition otherBranch) := by
  intro alone within beside
  have skipped := beside.skipBeforeElse
  simp only [elsePart, together_modify_bind, together_current_bind,
    ← skipped.current_alike.isKeyword_eq]
  split
  · rename_i found
    rw [together_advance_bind]
    refine inStep.next (skipped.advance (skipped.rest_ne_nil_of_is (by decide) found)) ?_
    intro elseBranch after otherElse companion same beside
    exact ⟨by simp only [Node.unnumbered, sameCondition, sameBranch, same], beside⟩
  · exact ⟨by simp only [Node.unnumbered, sameCondition, sameBranch], skipped⟩

theorem together_ifStatement (inStep : InStep tail Node.unnumbered statement statement)
    (inStepExpression : InStep tail Node.unnumbered expression expression)
    {alone within : Parser} (beside : Beside tail alone within) (remaining : alone.rest ≠ []) :
    Together (ifStatement statement expression) alone (ifStatement statement expression) within
      (Matching tail Node.unnumbered) := by
  rw [ifStatement, together_advance_bind]
  refine (inStep_expect "(").next (beside.advance remaining) fun _ _ _ _ _ beside => ?_
  refine inStepExpression.next beside fun condition _ otherCondition _ sameCondition beside => ?_
  refine (inStep_expect ")").next beside fun _ _ _ _ _ beside => ?_
  refine inStep.next beside fun thenBranch _ otherBranch _ sameBranch beside => ?_
  exact inStep_elsePart inStep sameCondition sameBranch _ _ beside

theorem together_whileStatement (inStep : InStep tail Node.unnumbered statement statement)
    (inStepExpression : InStep tail Node.unnumbered expression expression)
    {alone within : Parser} (beside : Beside tail alone within) (remaining : alone.rest ≠ []) :
    Together (whileStatement statement expression) alone
      (whileStatement statement expression) within (Matching tail Node.unnumbered) := by
  rw [whileStatement, together_advance_bind]
  refine (inStep_expect "(").next (beside.advance remaining) fun _ _ _ _ _ beside => ?_
  refine inStepExpression.next beside fun condition _ otherCondition _ sameCondition beside => ?_
  refine (inStep_expect ")").next beside fun _ _ _ _ _ beside => ?_
  refine inStep.next beside fun body _ otherBody _ sameBody beside => ?_
  exact ⟨by simp only [Node.unnumbered, sameCondition, sameBody], beside⟩

theorem together_bracedBlock (consumes : MoveLaw.consumption.Governs Node.mentions statement)
    (inStep : InStep tail Node.unnumbered statement statement) {alone within : Parser}
    (beside : Beside tail alone within) (remaining : alone.rest ≠ []) :
    Together (bracedBlock statement) alone (bracedBlock statement) within
      (Matching tail Node.unnumbered) := by
  rw [bracedBlock, together_advance_bind]
  refine (inStep_statements consumes inStep _).next (beside.advance remaining)
    fun body _ otherBody _ sameBody beside => ?_
  refine (inStep_expect "\x7d").next beside fun _ _ _ _ _ beside => ?_
  exact ⟨by simp only [Node.unnumbered, sameBody], beside⟩

theorem inStep_statementBody (consumes : MoveLaw.consumption.Governs Node.mentions statement)
    (inStep : InStep tail Node.unnumbered statement statement)
    (inStepExpression : InStep tail Node.unnumbered expression expression) :
    InStep tail Node.unnumbered (statementBody statement expression)
      (statementBody statement expression) := by
  intro alone within beside
  have alike := beside.current_alike
  simp only [statementBody, together_current_bind, ← alike.isKeyword_eq, ← alike.isPunctuation_eq]
  split
  · rename_i found
    exact together_ifStatement inStep inStepExpression beside
      (beside.rest_ne_nil_of_is (by decide) found)
  · split
    · rename_i found
      exact together_whileStatement inStep inStepExpression beside
        (beside.rest_ne_nil_of_is (by decide) found)
    · split
      · rename_i found
        exact together_bracedBlock consumes inStep beside
          (beside.rest_ne_nil_of_is (by decide) found)
      · exact inStepExpression _ _ beside

theorem inStep_bareName (name : String) :
    InStep tail Node.unnumbered (bareName name) (bareName name) := by
  intro alone within beside
  simp only [bareName]
  cases constant? name with
  | some value => exact ⟨rfl, beside⟩
  | none =>
    cases HostVar.ofName? name with
    | some host => exact ⟨rfl, beside⟩
    | none =>
      refine ⟨rfl, ?_⟩
      exact ⟨beside.rest_eq, beside.unmarked, beside.marked, beside.alone_ends,
        beside.within_ends⟩

theorem inStep_afterName (consumes : MoveLaw.consumption.Governs Node.mentions expression)
    (inStep : InStep tail Node.unnumbered expression expression) (name : String) :
    InStep tail Node.unnumbered (afterName expression name) (afterName expression name) := by
  intro alone within beside
  rw [afterName]
  refine (inStep_eat "(").next beside fun called _ otherCalled _ sameCalled beside => ?_
  cases sameCalled
  cases called with
  | true =>
    simp only [if_true]
    refine (inStep_arguments consumes inStep).next beside
      fun arguments _ otherArguments _ sameArguments beside => ?_
    refine (inStep_expect ")").next beside fun _ _ _ _ _ beside => ?_
    refine ⟨by simp only [Node.unnumbered, sameArguments], ?_⟩
    exact ⟨beside.rest_eq, beside.unmarked, beside.marked, beside.alone_ends, beside.within_ends⟩
  | false =>
    simp only [Bool.false_eq_true, if_false]
    refine (inStep_eat "[").next beside fun indexed _ otherIndexed _ sameIndexed beside => ?_
    cases sameIndexed
    cases indexed with
    | true =>
      simp only [if_true]
      refine inStep.next beside fun index _ otherIndex _ sameIndex beside => ?_
      refine (inStep_expect "]").next beside fun _ _ _ _ _ beside => ?_
      exact ⟨by simp only [Node.unnumbered, sameIndex], beside⟩
    | false => exact inStep_bareName name _ _ beside

theorem inStep_parenthesized (consumes : MoveLaw.consumption.Governs Node.mentions statement)
    (inStep : InStep tail Node.unnumbered statement statement) :
    InStep tail Node.unnumbered (parenthesized statement) (parenthesized statement) := by
  intro alone within beside
  rw [parenthesized]
  refine inStep.next beside fun first _ otherFirst _ sameFirst beside => ?_
  rw [together_current_bind, ← beside.current_alike.isPunctuation_eq]
  split
  · refine (inStep_statements consumes inStep _).next beside
      fun more _ otherMore _ sameMore beside => ?_
    refine (inStep_expect ")").next beside fun _ _ _ _ _ beside => ?_
    exact ⟨by simp only [Node.unnumbered, unnumberedAll, sameFirst, sameMore], beside⟩
  · refine (inStep_expect ")").next beside fun _ _ _ _ _ beside => ?_
    exact ⟨sameFirst, beside⟩

theorem inStep_missingOperand (token other : Token) :
    InStep tail Node.unnumbered (missingOperand token) (missingOperand other) :=
  fun _ _ beside => ⟨rfl, beside.note _ _⟩

theorem inStep_primary (consumesStatement : MoveLaw.consumption.Governs Node.mentions statement)
    (consumesExpression : MoveLaw.consumption.Governs Node.mentions expression)
    (inStepStatement : InStep tail Node.unnumbered statement statement)
    (inStepExpression : InStep tail Node.unnumbered expression expression) :
    InStep tail Node.unnumbered (primary statement expression) (primary statement expression) := by
  intro alone within beside
  rw [primary, together_current_bind]
  by_cases remaining : alone.rest = []
  -- At the end of the section an operand is missing, whether a marker or the end comes next.
  · have aloneKind : alone.current.kind = .endOfFile := by
      simpa [Parser.current, remaining, Token.isEndOfFile] using beside.alone_ends
    have withinEnds := beside.current_ends remaining
    rw [Token.endsSection, Bool.or_eq_true] at withinEnds
    rcases withinEnds with marker | finished
    · have withinKind : within.current.kind = .identifier := by
        simp only [Token.isSectionMarker, Bool.and_eq_true, beq_iff_eq] at marker
        exact marker.1
      simp only [aloneKind, withinKind, marker, if_true]
      exact inStep_missingOperand _ _ _ _ beside
    · have withinKind : within.current.kind = .endOfFile := by
        simpa [Token.isEndOfFile] using finished
      simp only [aloneKind, withinKind]
      exact inStep_missingOperand _ _ _ _ beside
  · have passed := beside.advance remaining
    rw [← beside.current_eq remaining]
    cases alone.current.kind with
    | number => exact ⟨rfl, passed⟩
    | string => exact ⟨rfl, passed⟩
    | identifier =>
      simp only
      split
      · exact inStep_missingOperand _ _ _ _ beside
      · exact inStep_afterName consumesExpression inStepExpression _ _ _ passed
    | keyword =>
      simp only
      split
      · exact inStepStatement _ _ beside
      · exact inStep_missingOperand _ _ _ _ beside
    | punctuation =>
      simp only
      split
      · exact inStep_parenthesized consumesStatement inStepStatement _ _ passed
      · exact inStep_missingOperand _ _ _ _ beside
    | operator | comment | newline | endOfFile => exact inStep_missingOperand _ _ _ _ beside

/-! ### Expressions -/

/-- Behind left operands of the same look, a run of binary operators keeps the parsers in step. -/
def RunsInStep (tail : List Token) (run : Node → Parse Node) : Prop :=
  ∀ left other : Node, left.unnumbered = other.unnumbered →
    InStep tail Node.unnumbered (run left) (run other)

variable {unary : Parse Node} {run : Node → Parse Node}

theorem inStep_conditional (inStepUnary : InStep tail Node.unnumbered unary unary)
    (runs : RunsInStep tail run)
    (inStepExpression : InStep tail Node.unnumbered expression expression) :
    InStep tail Node.unnumbered (conditional unary run expression)
      (conditional unary run expression) := by
  intro alone within beside
  rw [conditional]
  refine inStepUnary.next beside fun left _ otherLeft _ sameLeft beside => ?_
  refine (runs left otherLeft sameLeft).next beside
    fun condition _ otherCondition _ sameCondition beside => ?_
  rw [together_current_bind, ← beside.current_alike.isOperator_eq]
  split
  · rename_i found
    rw [together_advance_bind]
    refine inStepExpression.next (beside.advance (beside.rest_ne_nil_of_is (by decide) found))
      fun thenBranch _ otherBranch _ sameBranch beside => ?_
    refine (inStep_eat ":").next beside fun colon _ otherColon _ sameColon beside => ?_
    cases sameColon
    cases colon with
    | true =>
      simp only [if_true]
      refine inStepExpression.next beside fun elseBranch _ otherElse _ sameElse beside => ?_
      exact ⟨by simp only [Node.unnumbered, sameCondition, sameBranch, sameElse], beside⟩
    | false => exact ⟨by simp only [Node.unnumbered, sameCondition, sameBranch], beside⟩
  · exact ⟨sameCondition, beside⟩

theorem inStep_expressionBody (inStepUnary : InStep tail Node.unnumbered unary unary)
    (runs : RunsInStep tail run)
    (inStepExpression : InStep tail Node.unnumbered expression expression) :
    InStep tail Node.unnumbered (expressionBody unary run expression)
      (expressionBody unary run expression) := by
  intro alone within beside
  rw [expressionBody]
  refine (inStep_conditional inStepUnary runs inStepExpression).next beside
    fun target after otherTarget companion sameTarget beside => ?_
  rw [together_current_bind, ← beside.current_alike.operator?_eq]
  cases found : after.current.operator? AssignOp.ofSymbol? with
  | some op =>
    simp only [together_advance_bind]
    refine inStepExpression.next (beside.advance (beside.rest_ne_nil_of_operator found))
      fun value _ otherValue _ sameValue beside => ?_
    exact ⟨by simp only [Node.unnumbered, sameTarget, sameValue], beside⟩
  | none => exact ⟨sameTarget, beside⟩

theorem inStep_unaryBody {deeper : Parse Node}
    (inStepDeeper : ∀ {alone within}, Beside tail alone within → alone.rest ≠ [] →
      Together deeper alone deeper within (Matching tail Node.unnumbered))
    (inStepPrimary : InStep tail Node.unnumbered (primary statement expression)
      (primary statement expression)) :
    InStep tail Node.unnumbered (unaryBody deeper statement expression)
      (unaryBody deeper statement expression) := by
  intro alone within beside
  rw [unaryBody, together_current_bind, ← beside.current_alike.operator?_eq]
  cases found : alone.current.operator? UnaryOp.ofSymbol? with
  | some op =>
    refine (inStepDeeper beside (beside.rest_ne_nil_of_operator found)).bind ?_
    rintro operand _ otherOperand _ ⟨sameOperand, beside⟩
    exact ⟨by simp only [Node.unnumbered, sameOperand], beside⟩
  | none => exact inStepPrimary _ _ beside

theorem runsInStep_runBody {deeper : BinaryOp → Node → Parse Node}
    (inStepDeeper : ∀ op {left other : Node}, left.unnumbered = other.unnumbered →
      ∀ {alone within}, Beside tail alone within → alone.rest ≠ [] →
        Together (deeper op left) alone (deeper op other) within (Matching tail Node.unnumbered)) :
    RunsInStep tail (runBody deeper) := by
  intro left other same alone within beside
  rw [runBody, runBody, together_current_bind, ← beside.current_alike.operator?_eq]
  cases found : alone.current.operator? BinaryOp.ofSymbol? with
  | some op => exact inStepDeeper op same beside (beside.rest_ne_nil_of_operator found)
  | none => exact ⟨same, beside⟩

end Levels

/-! ### The grammar at every budget -/

theorem inStep_refuse {look : α → β} : InStep tail look refuse refuse :=
  fun _ _ _ => trivial

/-- The parsers of one level keep the parsers in step. -/
structure LevelInStep (tail : List Token) (level : Grammar) : Prop where
  statement : InStep tail Node.unnumbered level.statement level.statement
  expression : InStep tail Node.unnumbered level.expression level.expression
  unary : InStep tail Node.unnumbered level.unary level.unary
  run : RunsInStep tail level.run

theorem levelInStep_exhausted : LevelInStep tail .exhausted where
  statement := inStep_refuse
  expression := inStep_refuse
  unary := inStep_unaryBody (fun _ _ => trivial)
    (inStep_primary MoveLaw.governs_refuse MoveLaw.governs_refuse inStep_refuse inStep_refuse)
  run := runsInStep_runBody fun _ _ _ _ _ _ _ _ => trivial

theorem LevelInStep.deepen {below : Grammar} (consumes : MoveLaw.consumption.GovernsLevel below)
    (inStep : LevelInStep tail below) : LevelInStep tail below.deepen := by
  have statement := inStep_statementBody consumes.statement inStep.statement inStep.expression
  have expression := inStep_expressionBody inStep.unary inStep.run inStep.expression
  have primary := inStep_primary consumes.deepen.statement consumes.deepen.expression
    statement expression
  refine ⟨statement, expression, inStep_unaryBody ?_ primary, runsInStep_runBody ?_⟩
  · intro alone within beside remaining
    rw [together_advance_bind]
    exact inStep.unary _ _ (beside.advance remaining)
  · intro op left other same alone within beside remaining
    rw [together_advance_bind]
    refine inStep.unary.next (beside.advance remaining)
      fun right _ otherRight _ sameRight beside => ?_
    exact inStep.run _ _ (by simp only [Node.unnumbered, same, sameRight]) _ _ beside

/-- No parser of the grammar tells the next section from the end of the source. -/
theorem grammar_inStep (tail : List Token) (budget : Nat) : LevelInStep tail (grammar budget) := by
  induction budget with
  | zero => exact levelInStep_exhausted
  | succ budget ih => exact ih.deepen (MoveLaw.consumption.grammar budget)

end Parse

end EffectScript.Language
