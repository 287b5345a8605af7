import EffectScript.Proofs.ParserEnd
import EffectScript.Proofs.RefusalPlace

/-!
# What a refusal costs

A step is refused only where its budget is used up, and a budget is used up by consuming tokens: one
token takes two levels at most.  Two steps descend without a token, from a statement to its
expression and from an expression to its operand, and a parenthesis takes both of them at once.
`Parse.Spends` bounds from below the tokens that a step consumes before it is refused.  The bound
passes from one level of the grammar to the next, and for all levels that there are it says that a
statement is refused only if it is long.
-/

namespace EffectScript.Language

/-! ### Tokens passed -/

namespace Parser

variable {stuck also : Token → Prop} {start parser after : Parser} {gain : Nat}

theorem Consumes.consumed_le (consumes : parser.Consumes after) :
    parser.consumed ≤ after.consumed := by
  have balance := consumes.balance
  have shorter := consumes.length_le
  omega

theorem Consumes.rest_eq (consumes : parser.Consumes after)
    (unmoved : after.consumed = parser.consumed) : after.rest = parser.rest := by
  have balance := consumes.balance
  exact consumes.suffix.eq_of_length (by omega)

theorem Consumes.current_eq (consumes : parser.Consumes after)
    (unmoved : after.consumed = parser.consumed) : after.current = parser.current := by
  rw [current, current, consumes.rest_eq unmoved, consumes.finish_eq]

theorem Consumes.ensureProgress (first : Nat) (parser : Parser) :
    parser.Consumes (parser.ensureProgress first) := by
  have unmoved : MoveLaw.consumption.moves parser [] parser := .refl parser
  exact MoveLaw.moves_ensureProgress first unmoved

theorem Consumes.note (message : String) (parser : Parser) :
    parser.Consumes (parser.note message) :=
  ⟨List.suffix_refl _, rfl, rfl⟩

theorem Consumes.skipBeforeElse (parser : Parser) : parser.Consumes parser.skipBeforeElse := by
  have unmoved : MoveLaw.consumption.moves parser [] parser := .refl parser
  exact MoveLaw.moves_skipBeforeElse unmoved

/-- A later parser, which stands still only at a token of a certain kind. -/
structure Advances (stuck : Token → Prop) (parser after : Parser) : Prop where
  consumes : parser.Consumes after
  stuck_of_unmoved : after.consumed = parser.consumed → stuck parser.current

/-- A parser that came at least `gain` tokens further, on tokens that end properly. -/
structure Past (start : Parser) (gain : Nat) (parser : Parser) : Prop where
  ends : start.finish.kind = .endOfFile
  consumes : start.Consumes parser
  gain_le : start.consumed + gain ≤ parser.consumed

namespace Advances

theorem trans (earlier : start.Advances stuck parser) (later : parser.Advances also after) :
    start.Advances (fun token => stuck token ∧ also token) after := by
  refine ⟨earlier.consumes.trans later.consumes, fun unmoved => ?_⟩
  have first := earlier.consumes.consumed_le
  have second := later.consumes.consumed_le
  have same : parser.consumed = start.consumed := by omega
  have current := earlier.consumes.current_eq same
  exact ⟨earlier.stuck_of_unmoved same, current ▸ later.stuck_of_unmoved (by omega)⟩

theorem imp (advances : parser.Advances stuck after)
    (weaker : stuck parser.current → also parser.current) : parser.Advances also after :=
  ⟨advances.consumes, fun unmoved => weaker (advances.stuck_of_unmoved unmoved)⟩

/-- What holds of the token that a parser comes to holds of the one at which it stands still. -/
theorem of_current (advances : parser.Advances stuck after) (also : Token → Prop)
    (here : also after.current) :
    parser.Advances (fun token => stuck token ∧ also token) after := by
  refine ⟨advances.consumes, fun unmoved => ⟨advances.stuck_of_unmoved unmoved, ?_⟩⟩
  rwa [advances.consumes.current_eq unmoved] at here

end Advances

namespace Past

theorem refl (ends : parser.finish.kind = .endOfFile) : parser.Past 0 parser :=
  ⟨ends, .refl parser, Nat.le_refl _⟩

variable (past : start.Past gain parser)

include past

theorem finish_kind : parser.finish.kind = .endOfFile := by
  rw [past.consumes.finish_eq, past.ends]

theorem further (consumes : parser.Consumes after) : start.Past gain after :=
  ⟨past.ends, past.consumes.trans consumes, past.gain_le.trans consumes.consumed_le⟩

theorem of_le {less : Nat} (le : less ≤ gain) : start.Past less parser :=
  ⟨past.ends, past.consumes, (Nat.add_le_add_left le _).trans past.gain_le⟩

theorem advance (inside : parser.current.kind ≠ .endOfFile) :
    start.Past (gain + 1) parser.advance := by
  refine ⟨past.ends, past.consumes.trans (.advance parser), ?_⟩
  have gained := past.gain_le
  cases remaining : parser.rest with
  | nil =>
    rw [current, remaining] at inside
    exact absurd past.finish_kind inside
  | cons token rest =>
    simp only [Parser.advance, remaining]
    omega

/-- A step brings a parser further, or it leaves it at the token at which it was stuck. -/
theorem moved_or_stuck (advances : parser.Advances stuck after) :
    start.Past (gain + 1) after ∨ start.Past gain after ∧ stuck after.current := by
  have further := past.further advances.consumes
  by_cases unmoved : after.consumed = parser.consumed
  · rw [advances.consumes.current_eq unmoved]
    exact .inr ⟨further, advances.stuck_of_unmoved unmoved⟩
  · have later := advances.consumes.consumed_le
    have gained := past.gain_le
    exact .inl ⟨past.ends, further.consumes, by omega⟩

theorem advances : start.Advances (fun _ => True) parser :=
  ⟨past.consumes, fun _ => trivial⟩

theorem advances_of_pos (positive : 0 < gain) : start.Advances stuck parser := by
  refine ⟨past.consumes, fun unmoved => ?_⟩
  have gained := past.gain_le
  omega

end Past

end Parser

namespace Token

variable {token : Token}

theorem inside_of_is {kind : TokenKind} {text : String} (found : token.is kind text = true)
    (other : kind ≠ .endOfFile) : token.kind ≠ .endOfFile := by
  simp only [is, Bool.and_eq_true, beq_iff_eq] at found
  rwa [found.1]

theorem inside_of_operator? {α : Type} {ofSymbol? : String → Option α} {op : α}
    (found : token.operator? ofSymbol? = some op) : token.kind ≠ .endOfFile := by
  intro ends
  simp [operator?, ends] at found

/-- Whether a token is the keyword of a branch or a loop. -/
def opensControl (token : Token) : Bool :=
  token.isKeyword "if" || token.isKeyword "while"

theorem Idle.opensControl_eq (idle : token.Idle) : token.opensControl = false := by
  have missing := idle.noPrimary
  simp only [opensControl, isKeyword, is, beginsPrimary] at missing ⊢
  cases kind : token.kind with
  | keyword =>
    rw [kind] at missing
    simpa using missing
  | _ => rfl

end Token

/-! ### Tokens consumed before a refusal -/

namespace Parse

variable {α : Type}

/-- A step from a parser succeeds, and stands still only at a token of a certain kind, or it is
refused `cost` tokens further on. -/
def SpendsAt (step : Parse α) (parser : Parser) (cost : Nat) (stuck : Token → Prop) : Prop :=
  step.Ensures parser (fun _ after => parser.Advances stuck after)
    (fun last => parser.consumed + cost ≤ last.consumed)

/-- A step spends tokens so wherever it starts. -/
def Spends (step : Parse α) (cost : Nat) (stuck : Token → Prop) : Prop :=
  ∀ parser, parser.finish.kind = .endOfFile → step.SpendsAt parser cost stuck

variable {step : Parse α} {start parser : Parser} {cost gain need : Nat}
  {stuck loose : Token → Prop} {good : α → Parser → Prop}

theorem SpendsAt.imp {less : Nat} (spends : step.SpendsAt parser cost stuck) (le : less ≤ cost)
    (weaker : stuck parser.current → loose parser.current) :
    step.SpendsAt parser less loose :=
  Ensures.imp spends (fun _ _ advances => advances.imp weaker)
    fun _ spent => (Nat.add_le_add_left le _).trans spent

/-- Tokens passed so far, and then a step. -/
theorem SpendsAt.next (spends : step.SpendsAt parser cost stuck) (past : start.Past gain parser)
    (enough : need ≤ gain + cost)
    (rest : ∀ value after, parser.Advances stuck after → start.Past gain after →
      good value after) :
    step.Ensures parser good (fun last => start.consumed + need ≤ last.consumed) := by
  refine Ensures.imp spends (fun value after advances => ?_) fun last spent => ?_
  · exact rest value after advances (past.further advances.consumes)
  · have gained := past.gain_le
    omega

theorem Spends.next (spends : step.Spends cost stuck) (past : start.Past gain parser)
    (enough : need ≤ gain + cost)
    (rest : ∀ value after, parser.Advances stuck after → start.Past gain after →
      good value after) :
    step.Ensures parser good (fun last => start.consumed + need ≤ last.consumed) :=
  (spends parser past.finish_kind).next past enough rest

theorem spends_refuse (stuck : Token → Prop) : (refuse : Parse α).Spends 0 stuck :=
  fun _ _ => Nat.le_refl _

theorem spends_eat (mark : String) (cost : Nat) : (eat mark).Spends cost fun _ => True := by
  intro parser ends
  rw [SpendsAt, ensures_eat]
  split
  · exact ⟨.advance parser, fun _ => trivial⟩
  · exact ⟨.refl parser, fun _ => trivial⟩

theorem spends_expect (mark : String) (cost : Nat) : (expect mark).Spends cost fun _ => True := by
  intro parser ends
  rw [expect, SpendsAt]
  simp only [ensures_bind, ensures_eat]
  split
  · exact ⟨.advance parser, fun _ => trivial⟩
  · exact ⟨.note _ parser, fun _ => trivial⟩

theorem spends_bareName (name : String) (cost : Nat) :
    (bareName name).Spends cost fun _ => True := by
  intro parser ends
  rw [bareName]
  split
  · exact ⟨.refl parser, fun _ => trivial⟩
  · split
    · exact ⟨.refl parser, fun _ => trivial⟩
    · exact ⟨⟨List.suffix_refl _, rfl, rfl⟩, fun _ => trivial⟩

/-! ### Repetitions -/

variable {statement expression : Parse Node}

theorem spends_statementsWithin (spends : statement.Spends cost stuck) (stops : Token → Bool)
    (allowance : List Token) :
    (statementsWithin statement stops allowance).Spends cost fun _ => True := by
  induction allowance with
  | nil => exact fun parser ends => (Parser.Past.refl ends).advances
  | cons _ allowance ih =>
    intro parser ends
    rw [statementsWithin, SpendsAt]
    simp only [ensures_bind, ensures_modify, ensures_inspect]
    have skipped := (Parser.Past.refl ends).further (.skipSeparators parser)
    split
    · exact skipped.advances
    · simp only [ensures_bind, ensures_inspect, ensures_modify]
      refine spends.next skipped (by omega) fun node after _ past => ?_
      refine ih.next (past.further (.ensureProgress _ after)) (by omega) fun nodes last _ past => ?_
      exact past.advances

theorem spends_statements (spends : statement.Spends cost stuck) (stops : Token → Bool) :
    (statements statement stops).Spends cost fun _ => True :=
  fun parser ends => spends_statementsWithin spends stops parser.allowance parser ends

theorem spends_argumentsWithin (spends : expression.Spends cost stuck) (allowance : List Token) :
    (argumentsWithin expression allowance).Spends cost fun _ => True := by
  induction allowance with
  | nil => exact fun parser ends => (Parser.Past.refl ends).advances
  | cons _ allowance ih =>
    intro parser ends
    rw [argumentsWithin, SpendsAt]
    simp only [ensures_bind, ensures_inspect]
    split
    · exact (Parser.Past.refl ends).advances
    · simp only [ensures_bind, ensures_inspect, ensures_modify]
      refine spends.next (.refl ends) (by omega) fun node after _ past => ?_
      refine (spends_eat "," cost).next past (by omega) fun _ after _ past => ?_
      refine ih.next (past.further (.ensureProgress _ after)) (by omega) fun nodes last _ past => ?_
      exact past.advances

theorem spends_arguments (spends : expression.Spends cost stuck) :
    (arguments expression).Spends cost fun _ => True :=
  fun parser ends => spends_argumentsWithin spends parser.allowance parser ends

/-! ### Statements -/

/-- What the statements of a level spend.  One level in two costs a token; a keyword costs one more,
and at an idle token only a brace leads on. -/
structure StatementSpends (statement : Parse Node) (budget : Nat) : Prop where
  anywhere : statement.Spends ((budget - 1) / 2) (·.opensControl = false)
  control (parser : Parser) : parser.finish.kind = .endOfFile →
    parser.current.opensControl = true →
      statement.SpendsAt parser ((budget + 1) / 2) (·.opensControl = false)
  idle (parser : Parser) : parser.finish.kind = .endOfFile → parser.current.Idle →
    statement.SpendsAt parser (budget / 2) (·.opensControl = false)

variable {budget : Nat}

theorem ensures_elsePart (spends : statement.Spends cost stuck) (past : start.Past 1 parser)
    (enough : need ≤ 2 + cost) (condition thenBranch : Node) :
    (elsePart statement condition thenBranch).Ensures parser
      (fun _ after => start.Past 1 after) (fun last => start.consumed + need ≤ last.consumed) := by
  rw [elsePart]
  simp only [ensures_bind, ensures_modify, ensures_current]
  have skipped := past.further (.skipBeforeElse parser)
  split
  · rename_i found
    simp only [ensures_bind, ensures_advance]
    have passed := skipped.advance (Token.inside_of_is found (by decide))
    exact spends.next passed (by omega) fun _ after _ past => past.of_le (by omega)
  · exact skipped

/-- The condition behind a keyword consumes a token, or an idle token stands behind it. -/
theorem ensures_condition (spends : expression.Spends (budget / 2) Token.Idle)
    (ends : parser.finish.kind = .endOfFile) (inside : parser.current.kind ≠ .endOfFile)
    {next : Node → Parse Node} {good : Node → Parser → Prop}
    (rest : ∀ condition after, parser.Past 2 after ∨ parser.Past 1 after ∧ after.current.Idle →
      (next condition).Ensures after good
        (fun last => parser.consumed + (budget + 2) / 2 ≤ last.consumed)) :
    (do advance; expect "("; let condition ← expression; expect ")"; next condition).Ensures parser
      good (fun last => parser.consumed + (budget + 2) / 2 ≤ last.consumed) := by
  simp only [ensures_bind, ensures_advance]
  have keyword := (Parser.Past.refl ends).advance inside
  refine (spends_expect "(" budget).next keyword (by omega) fun _ opened _ past => ?_
  refine spends.next past (by omega) fun condition after advances _ => ?_
  -- Where the condition consumed nothing, the token behind it is idle, and a mark that follows is
  -- passed in its place.
  have read := past.moved_or_stuck advances
  refine (spends_expect ")" budget).next (past.further advances.consumes) (by omega)
    fun _ closed passes _ => rest condition closed ?_
  rcases read with moved | ⟨stands, idle⟩
  · exact .inl (moved.further passes.consumes)
  · exact stands.moved_or_stuck (passes.imp fun _ => idle)

theorem StatementSpends.next (spends : statement.StatementSpends budget)
    (past : start.Past 2 parser ∨ start.Past 1 parser ∧ parser.current.Idle)
    {good : Node → Parser → Prop}
    (rest : ∀ value after, start.Past 1 after → good value after) :
    statement.Ensures parser good
      (fun last => start.consumed + (budget + 2) / 2 ≤ last.consumed) := by
  rcases past with past | ⟨past, idle⟩
  · exact spends.anywhere.next past (by omega) fun value after _ past =>
      rest value after (past.of_le (by omega))
  · exact (spends.idle parser past.finish_kind idle).next past (by omega) fun value after _ past =>
      rest value after past

section Bodies

variable (ofStatement : statement.StatementSpends budget)
  (ofExpression : expression.Spends (budget / 2) Token.Idle)

include ofStatement ofExpression

theorem spends_control (ends : parser.finish.kind = .endOfFile)
    (control : parser.current.opensControl = true) :
    (statementBody statement expression).SpendsAt parser ((budget + 2) / 2)
      (·.opensControl = false) := by
  have inside : parser.current.kind ≠ .endOfFile := by
    rcases (Bool.or_eq_true _ _).mp control with found | found
    · exact Token.inside_of_is found (by decide)
    · exact Token.inside_of_is found (by decide)
  rw [statementBody, SpendsAt]
  simp only [ensures_bind, ensures_current, ensures_ite]
  split
  · rw [ifStatement]
    refine ensures_condition ofExpression ends inside fun condition after past => ?_
    simp only [ensures_bind]
    refine ofStatement.next past fun thenBranch after past => ?_
    refine (ensures_elsePart ofStatement.anywhere past (by omega) condition thenBranch).imp
      (fun _ after past => past.advances_of_pos (by omega)) fun _ => id
  · split
    · rw [whileStatement]
      refine ensures_condition ofExpression ends inside fun condition after past => ?_
      simp only [ensures_bind]
      exact ofStatement.next past fun body after past => past.advances_of_pos (by omega)
    · rename_i noIf noWhile
      simp_all [Token.opensControl]

omit ofExpression in
theorem spends_bracedBlock (ends : parser.finish.kind = .endOfFile)
    (brace : parser.current.isPunctuation "\x7b" = true) (stuck : Token → Prop) :
    (bracedBlock statement).SpendsAt parser (1 + (budget - 1) / 2) stuck := by
  rw [bracedBlock, SpendsAt]
  simp only [ensures_bind, ensures_advance]
  have opened := (Parser.Past.refl ends).advance (Token.inside_of_is brace (by decide))
  refine (spends_statements ofStatement.anywhere _).next opened (by omega)
    fun body after _ past => ?_
  refine (spends_expect "\x7d" budget).next past (by omega) fun _ after _ past => ?_
  exact past.advances_of_pos (by omega)

omit ofExpression in
/-- A statement without a keyword spends what a block or an expression spends. -/
theorem spends_statementBody_of_noControl (ends : parser.finish.kind = .endOfFile)
    (noControl : parser.current.opensControl = false) (le : cost ≤ 1 + (budget - 1) / 2)
    (spends : expression.SpendsAt parser cost (·.opensControl = false)) :
    (statementBody statement expression).SpendsAt parser cost (·.opensControl = false) := by
  have ⟨noIf, noWhile⟩ := Bool.or_eq_false_iff.mp noControl
  rw [statementBody, SpendsAt]
  simp only [ensures_bind, ensures_current, noIf, noWhile, Bool.false_eq_true, if_false,
    ensures_ite]
  split
  · rename_i brace
    exact (spends_bracedBlock ofStatement ends brace (fun _ => False)).imp le False.elim
  · exact spends

theorem spends_statementBody :
    (statementBody statement expression).Spends (budget / 2) (·.opensControl = false) := by
  intro parser ends
  cases control : parser.current.opensControl with
  | true => exact (spends_control ofStatement ofExpression ends control).imp (by omega) id
  | false =>
    refine spends_statementBody_of_noControl ofStatement ends control (by omega) ?_
    exact (ofExpression parser ends).imp (Nat.le_refl _) fun _ => control

/-! ### Primaries -/

omit ofExpression in
theorem spends_parenthesized :
    (parenthesized statement).Spends ((budget - 1) / 2) fun _ => True := by
  intro parser ends
  rw [parenthesized, SpendsAt]
  simp only [ensures_bind, ensures_current]
  refine ofStatement.anywhere.next (.refl ends) (by omega) fun first after _ past => ?_
  split
  · simp only [ensures_bind]
    refine (spends_statements ofStatement.anywhere _).next past (by omega)
      fun more after _ past => ?_
    exact (spends_expect ")" budget).next past (by omega) fun _ after _ past => past.advances
  · simp only [ensures_bind]
    exact (spends_expect ")" budget).next past (by omega) fun _ after _ past => past.advances

omit ofStatement in
theorem spends_afterName (name : String) :
    (afterName expression name).Spends (budget / 2) fun _ => True := by
  intro parser ends
  rw [afterName, SpendsAt]
  simp only [ensures_bind]
  refine (spends_eat "(" budget).next (.refl ends) (by omega) fun called after _ past => ?_
  cases called with
  | true =>
    simp only [if_true, ensures_bind, ensures_internFunction, ensures_pure]
    refine (spends_arguments ofExpression).next past (by omega) fun arguments after _ past => ?_
    refine (spends_expect ")" budget).next past (by omega) fun _ after _ past => ?_
    -- The table of functions grows, and no token is consumed.
    exact ⟨past.consumes.trans ⟨List.suffix_refl _, rfl, rfl⟩, fun _ => trivial⟩
  | false =>
    simp only [Bool.false_eq_true, if_false, ensures_bind]
    refine (spends_eat "[" budget).next past (by omega) fun indexed after _ past => ?_
    cases indexed with
    | true =>
      simp only [if_true, ensures_bind]
      refine ofExpression.next past (by omega) fun index after _ past => ?_
      exact (spends_expect "]" budget).next past (by omega) fun _ after _ past => past.advances
    | false =>
      simp only [Bool.false_eq_true, if_false]
      exact (spends_bareName name budget).next past (by omega) fun _ after _ past => past.advances

theorem spends_primary :
    (primary statement expression).Spends ((budget + 1) / 2) (·.beginsPrimary = false) := by
  intro parser ends
  by_cases missing : parser.current.beginsPrimary = false
  · rw [SpendsAt, ensures_primary_of_missing missing]
    exact ⟨.note _ parser, fun _ => missing⟩
  · rw [primary, SpendsAt]
    rw [Token.beginsPrimary] at missing
    simp only [ensures_bind, ensures_current]
    have passed (inside : parser.current.kind ≠ .endOfFile) : parser.Past 1 parser.advance :=
      (Parser.Past.refl ends).advance inside
    cases kind : parser.current.kind with
    | number | string => exact (passed (by simp [kind])).advances_of_pos Nat.one_pos
    | identifier =>
      simp only [kind, Bool.not_eq_false', Bool.not_eq_true] at missing
      simp only [missing, Bool.false_eq_true, if_false, ensures_bind, ensures_advance]
      exact (spends_afterName ofExpression _).next (passed (by simp [kind])) (by omega)
        fun _ after _ past => past.advances_of_pos Nat.one_pos
    | keyword =>
      simp only [kind, Bool.not_eq_false] at missing
      simp only [missing, if_true]
      have control : parser.current.opensControl = true := by
        simpa [Token.opensControl, Token.isKeyword, Token.is, kind] using missing
      refine (ofStatement.control parser ends control).imp (Nat.le_refl _) fun stuck => ?_
      rw [control] at stuck
      contradiction
    | punctuation =>
      simp only [kind, Bool.not_eq_false] at missing
      simp only [missing, if_true, ensures_bind, ensures_advance]
      exact (spends_parenthesized ofStatement).next (passed (by simp [kind])) (by omega)
        fun _ after _ past => past.advances_of_pos Nat.one_pos
    | operator | comment | newline | endOfFile => simp [kind] at missing

/-! ### Expressions -/

theorem spends_unaryBody {deeper : Parse Node}
    (ofDeeper : ∀ parser : Parser, parser.Past 1 parser.advance →
      deeper.SpendsAt parser ((budget + 1) / 2) fun _ => False) :
    (unaryBody deeper statement expression).Spends ((budget + 1) / 2) Token.NoOperand := by
  intro parser ends
  rw [unaryBody, SpendsAt]
  simp only [ensures_bind, ensures_current]
  cases found : parser.current.operator? UnaryOp.ofSymbol? with
  | some op =>
    have passed := (Parser.Past.refl ends).advance (Token.inside_of_operator? found)
    simp only [ensures_bind, ensures_pure]
    exact (ofDeeper parser passed).imp (Nat.le_refl _) False.elim
  | none =>
    refine (spends_primary ofStatement ofExpression parser ends).imp (Nat.le_refl _) ?_
    exact fun missing => ⟨found, missing⟩

end Bodies

theorem spends_runBody {deeper : BinaryOp → Node → Parse Node}
    (ofDeeper : ∀ op left (parser : Parser), parser.Past 1 parser.advance →
      (deeper op left).SpendsAt parser ((budget + 1) / 2) fun _ => False) (left : Node) :
    (runBody deeper left).Spends ((budget + 1) / 2)
      (·.operator? BinaryOp.ofSymbol? = none) := by
  intro parser ends
  rw [runBody, SpendsAt]
  simp only [ensures_bind, ensures_current]
  cases found : parser.current.operator? BinaryOp.ofSymbol? with
  | some op =>
    have passed := (Parser.Past.refl ends).advance (Token.inside_of_operator? found)
    exact (ofDeeper op left parser passed).imp (Nat.le_refl _) False.elim
  | none => exact ⟨.refl parser, fun _ => found⟩

section Expressions

variable {unary : Parse Node} {run : Node → Parse Node}
  (ofUnary : unary.Spends ((budget + 1) / 2) Token.NoOperand)
  (ofRun : ∀ left, (run left).Spends ((budget + 1) / 2) (·.operator? BinaryOp.ofSymbol? = none))
  (ofExpression : expression.Spends (budget / 2) Token.Idle)

include ofUnary ofRun ofExpression

theorem spends_conditional :
    (conditional unary run expression).Spends ((budget + 1) / 2) fun token =>
      (token.NoOperand ∧ token.operator? BinaryOp.ofSymbol? = none) ∧
        token.isOperator "?" = false := by
  intro parser ends
  rw [conditional, SpendsAt]
  simp only [ensures_bind, ensures_current]
  refine ofUnary.next (.refl ends) (by omega) fun left _ operand past => ?_
  refine (ofRun left).next past (by omega) fun condition after operators past => ?_
  split
  · rename_i question
    simp only [ensures_bind, ensures_advance]
    have passed := past.advance (Token.inside_of_is question (by decide))
    refine ofExpression.next passed (by omega) fun thenBranch after _ past => ?_
    refine (spends_eat ":" budget).next past (by omega) fun found after _ past => ?_
    split
    · simp only [ensures_bind]
      exact ofExpression.next past (by omega) fun _ after _ past =>
        past.advances_of_pos Nat.one_pos
    · exact past.advances_of_pos Nat.one_pos
  · rename_i noCondition
    rw [Bool.not_eq_true] at noCondition
    exact (operand.trans operators).of_current (·.isOperator "?" = false) noCondition

theorem spends_expressionBody :
    (expressionBody unary run expression).Spends ((budget + 1) / 2) Token.Idle := by
  intro parser ends
  rw [expressionBody, SpendsAt]
  simp only [ensures_bind, ensures_current]
  refine (spends_conditional ofUnary ofRun ofExpression).next (.refl ends) (by omega)
    fun target after advances past => ?_
  cases found : after.current.operator? AssignOp.ofSymbol? with
  | some op =>
    simp only [ensures_bind, ensures_advance]
    have passed := past.advance (Token.inside_of_operator? found)
    exact ofExpression.next passed (by omega) fun _ after _ past =>
      past.advances_of_pos Nat.one_pos
  | none =>
    have stopped := advances.of_current (·.operator? AssignOp.ofSymbol? = none) found
    refine stopped.imp fun stuck => ?_
    obtain ⟨⟨⟨operand, binary⟩, condition⟩, assignment⟩ := stuck
    exact ⟨operand, binary, condition, assignment⟩

end Expressions

end Parse

/-! ### The grammar at every budget -/

/-- What the parsers of one level spend. -/
structure Grammar.Spends (level : Grammar) (budget : Nat) : Prop where
  statement : level.statement.StatementSpends budget
  expression : level.expression.Spends (budget / 2) Token.Idle
  unary : level.unary.Spends ((budget + 1) / 2) Token.NoOperand
  run (left : Node) :
    (level.run left).Spends ((budget + 1) / 2) (·.operator? BinaryOp.ofSymbol? = none)

namespace Parse

theorem statementSpends_refuse : (refuse : Parse Node).StatementSpends 0 where
  anywhere := spends_refuse _
  control parser ends _ := spends_refuse _ parser ends
  idle parser ends _ := spends_refuse _ parser ends

/-- At an idle token an expression is refused only for want of any budget. -/
theorem spends_expression_of_idle {parser : Parser} (idle : parser.current.Idle) (budget : Nat) :
    (grammar budget).expression.SpendsAt parser ((budget + 1) / 2) (·.opensControl = false) := by
  cases budget with
  | zero => exact Nat.le_refl _
  | succ budget =>
    refine (ensures_expressionBody_of_idle idle budget).imp (fun _ after ended => ?_)
      fun _ => False.elim
    obtain ⟨-, message, rfl⟩ := ended
    exact ⟨.note message parser, fun _ => idle.opensControl_eq⟩

end Parse

theorem spends_exhausted : Grammar.exhausted.Spends 0 where
  statement := Parse.statementSpends_refuse
  expression := Parse.spends_refuse _
  unary := Parse.spends_unaryBody Parse.statementSpends_refuse (Parse.spends_refuse _)
    fun _ _ => Nat.le_refl _
  run := Parse.spends_runBody fun _ _ _ _ => Nat.le_refl _

theorem spends_grammar (budget : Nat) : (grammar budget).Spends budget := by
  induction budget with
  | zero => exact spends_exhausted
  | succ budget ih =>
    have statement : (grammar (budget + 1)).statement.StatementSpends (budget + 1) := by
      refine ⟨Parse.spends_statementBody ih.statement ih.expression, fun parser ends control => ?_,
        fun parser ends idle => ?_⟩
      · exact Parse.spends_control ih.statement ih.expression ends control
      · refine Parse.spends_statementBody_of_noControl ih.statement ends idle.opensControl_eq
          (by omega) ?_
        exact Parse.spends_expression_of_idle idle budget
    have expression : (grammar (budget + 1)).expression.Spends ((budget + 1) / 2) Token.Idle :=
      Parse.spends_expressionBody ih.unary ih.run ih.expression
    refine ⟨statement, expression, Parse.spends_unaryBody statement expression ?_,
      Parse.spends_runBody ?_⟩
    · intro parser passed
      rw [Parse.SpendsAt]
      simp only [Parse.ensures_bind, Parse.ensures_advance]
      exact ih.unary.next passed (by omega) fun _ after _ past => past.advances_of_pos Nat.one_pos
    · intro op left parser passed
      rw [Parse.SpendsAt]
      simp only [Parse.ensures_bind, Parse.ensures_advance]
      refine ih.unary.next passed (by omega) fun right after _ past => ?_
      exact (ih.run _).next past (by omega) fun _ after _ past => past.advances_of_pos Nat.one_pos

/-! ### The statement that is refused -/

namespace Parser

/-- A statement of a program or of a section begins here. -/
structure BeginsStatement (parser : Parser) : Prop where
  noBoundary : parser.atBoundary = false
  noSeparator : parser.current.isPunctuation ";" = false

/-- The places outside of all statements to which parsing comes: between the items of a program and
between the statements of a section. -/
inductive Outer (statement : Parse Node) (fresh : Parser) : Parser → Prop
  | fresh : Outer statement fresh fresh
  | separators {parser : Parser} :
    Outer statement fresh parser → Outer statement fresh parser.skipSeparators
  | marker {parser : Parser} : Outer statement fresh parser →
    parser.current.isSectionMarker = true → Outer statement fresh parser.advance
  | statement {parser after : Parser} {node : Node} : Outer statement fresh parser →
    parser.BeginsStatement → statement parser = .ok node after →
      Outer statement fresh (after.ensureProgress parser.consumed)

/-- A statement that begins outside of all others was refused. -/
def Refused (statement : Parse Node) (fresh last : Parser) : Prop :=
  ∃ start error, Outer statement fresh start ∧ start.BeginsStatement ∧
    statement start = .error error last

variable {statement : Parse Node} {fresh parser : Parser}

theorem skipSeparators_noSeparator (more : parser.skipSeparators.atEnd = false) :
    parser.skipSeparators.current.isPunctuation ";" = false := by
  cases remaining : parser.skipSeparators.rest with
  | nil => simp [atEnd, remaining] at more
  | cons token rest =>
    have shape : parser.rest.dropWhile (·.isPunctuation ";") = token :: rest := remaining
    have nonempty : parser.rest.dropWhile (·.isPunctuation ";") ≠ [] := by simp [shape]
    have stops := List.head_dropWhile_not _ nonempty
    simpa [current, remaining, shape] using stops

theorem Outer.consumes (consumes : MoveLaw.consumption.Governs Node.mentions statement)
    (outer : Outer statement fresh parser) : fresh.Consumes parser := by
  induction outer with
  | fresh => exact .refl fresh
  | separators _ ih => exact ih.trans (.skipSeparators _)
  | marker _ _ ih => exact ih.trans (.advance _)
  | @statement parser after node _ _ outcome ih =>
    have moved := consumes parser
    rw [Parse.Ensures, outcome] at moved
    exact (ih.trans moved).trans (.ensureProgress _ after)

end Parser

namespace Parse

variable {α : Type} {statement : Parse Node} {fresh parser : Parser}

theorem ensures_outcome (step : Parse α) (parser : Parser) :
    step.Ensures parser (fun value after => step parser = .ok value after)
      (fun last => ∃ error, step parser = .error error last) := by
  rw [Ensures]
  split
  · assumption
  · exact ⟨_, by assumption⟩

/-- A statement outside of all others, and what follows behind it. -/
theorem ensures_outer (outer : fresh.Outer statement parser) (begins : parser.BeginsStatement)
    {good : Node → Parser → Prop}
    (rest : ∀ node after, fresh.Outer statement (after.ensureProgress parser.consumed) →
      good node after) :
    statement.Ensures parser good (fresh.Refused statement) :=
  (ensures_outcome statement parser).imp
    (fun node after outcome => rest node after (outer.statement begins outcome))
    fun _ ⟨error, outcome⟩ => ⟨parser, error, outer, begins, outcome⟩

theorem ensures_statementsWithin_outer (allowance : List Token)
    (outer : fresh.Outer statement parser) :
    (statementsWithin statement (fun _ => false) allowance).Ensures parser
      (fun _ after => fresh.Outer statement after) (fresh.Refused statement) := by
  induction allowance generalizing parser with
  | nil => exact outer
  | cons _ allowance ih =>
    rw [statementsWithin]
    simp only [ensures_bind, ensures_modify, ensures_inspect, Bool.or_false]
    split
    · exact outer.separators
    · rename_i inside
      rw [Bool.not_eq_true] at inside
      simp only [ensures_bind, ensures_inspect, ensures_modify, ensures_pure]
      have more := (Bool.or_eq_false_iff.mp inside).1
      exact ensures_outer outer.separators ⟨inside, Parser.skipSeparators_noSeparator more⟩
        fun node after outer => ih outer

theorem ensures_itemsWithin_outer (allowance : List Token)
    (outer : fresh.Outer statement parser) :
    (itemsWithin statement allowance).Ensures parser
      (fun _ after => fresh.Outer statement after) (fresh.Refused statement) := by
  induction allowance generalizing parser with
  | nil => exact outer
  | cons _ allowance ih =>
    rw [itemsWithin]
    simp only [ensures_bind, ensures_modify, ensures_inspect]
    split
    · exact outer.separators
    · rename_i more
      rw [Bool.not_eq_true] at more
      simp only [ensures_bind, ensures_current]
      split
      · rename_i marker
        simp only [sectionItem, statements, ensures_bind, ensures_current, ensures_advance,
          ensures_inspect, ensures_pure]
        exact (ensures_statementsWithin_outer _ (outer.separators.marker marker)).imp
          (fun body after outer => ih outer) fun _ => id
      · rename_i noMarker
        rw [Bool.not_eq_true] at noMarker
        simp only [ensures_bind, ensures_inspect, ensures_modify, ensures_pure]
        have inside : parser.skipSeparators.atBoundary = false := by
          simp [Parser.atBoundary, more, noMarker]
        exact ensures_outer outer.separators ⟨inside, Parser.skipSeparators_noSeparator more⟩
          fun node after outer => ih outer

end Parse

namespace Parser

/-- If a program is refused, then in a statement of which at least 127 tokens were consumed by then.
The statement begins between the items of the program or between the statements of a section, and
parsing it from there is what was refused. -/
theorem refused_statement_long {tokens : List Token} {error : NestingError}
    (refused : parsed tokens = .error error) :
    ∃ start last taken, (ofTokens tokens).Outer (grammar nestingLimit).statement start ∧
      start.BeginsStatement ∧ (grammar nestingLimit).statement start = .error error last ∧
      ((ofTokens tokens).run Parse.program).2 = last ∧
      start.rest = taken ++ last.rest ∧ last.consumed = start.consumed + taken.length ∧
      127 ≤ taken.length := by
  have ensured : Parse.program.Ensures (ofTokens tokens) (fun _ _ => True)
      ((ofTokens tokens).Refused (grammar nestingLimit).statement) := by
    rw [Parse.ensures_program]
    exact (Parse.ensures_itemsWithin_outer _ .fresh).imp (fun _ _ _ => trivial) fun _ => id
  obtain ⟨start, found, outer, begins, outcome⟩ := ensured.run_error refused
  have reported := Parse.reports_program.run_error refused
  obtain rfl : found = error := by
    rw [(reports_grammar nestingLimit).statement start found _ outcome, reported]
  have consumes := (MoveLaw.consumption.grammar nestingLimit).statement
  have ends : start.finish.kind = .endOfFile := by
    rw [(outer.consumes consumes).finish_eq]
    simpa [Token.isEndOfFile] using ofTokens_finish tokens
  have spent := (spends_grammar nestingLimit).statement.anywhere start ends
  have moved := consumes start
  rw [Parse.SpendsAt, Parse.Ensures, outcome] at spent
  rw [Parse.Ensures, outcome] at moved
  obtain ⟨⟨taken, split⟩, -, balance⟩ := moved
  refine ⟨start, _, taken, outer, begins, outcome, rfl, split.symm, ?_, ?_⟩
  · rw [← split, List.length_append] at balance
    omega
  · rw [← split, List.length_append] at balance
    rw [nestingLimit] at spent
    omega

/-- Parentheses that take all levels but one, and an operator that needs two. -/
@[irreducible]
def steepestDescent : List Token :=
  List.replicate 127 ⟨.punctuation, "(", 1, 1⟩ ++ [⟨.operator, "-", 1, 2⟩, ⟨.number, "1", 1, 3⟩]

/-- The bound is met: the operator behind 127 parentheses is refused. -/
theorem refused_statement_long_steepest :
    (∃ error, parsed steepestDescent = .error error) ∧
      ∃ (start last : Parser) (taken : List Token),
        (ofTokens steepestDescent).Outer (grammar nestingLimit).statement start ∧
          start.consumed = 0 ∧ start.rest = taken ++ last.rest ∧ taken.length = 127 := by
  have failed : (parsed steepestDescent).isOk = false := by decide +kernel
  have reached : ((ofTokens steepestDescent).run Parse.program).2.consumed = 127 := by
    decide +kernel
  obtain ⟨error, refused⟩ : ∃ error, parsed steepestDescent = .error error := by
    cases outcome : parsed steepestDescent with
    | ok program =>
      rw [outcome] at failed
      contradiction
    | error error => exact ⟨error, rfl⟩
  obtain ⟨start, last, taken, outer, -, -, rfl, split, consumed, long⟩ :=
    refused_statement_long refused
  rw [reached] at consumed
  exact ⟨⟨error, refused⟩, start, _, taken, outer, by omega, split, by omega⟩

end Parser

end EffectScript.Language
