import EffectScript.Proofs.FreshParser
import EffectScript.Proofs.GrammarLaw

/-!
# Where a refusal points

A refusal carries the place of the token at which the parser stands when its budget is used up.
`Parse.Reports` says so of one step; it passes from the parts of a step to the whole, and from one
level of the grammar to the next, so it holds of every step of the grammar.
-/

namespace EffectScript.Language

/-- The refusal at the current token. -/
def Parser.refusal (parser : Parser) : NestingError :=
  ⟨parser.current.line, parser.current.column⟩

namespace Parse

variable {α β : Type}

/-- Wherever a step starts, a refusal points at the token at which it leaves the parser. -/
def Reports (step : Parse α) : Prop :=
  ∀ parser error after, step parser = .error error after → error = after.refusal

/-! ### Parts of a step -/

theorem reports_refuse : Reports (refuse : Parse α) := by
  rintro parser error after ⟨⟩
  rfl

theorem reports_pure (value : α) : Reports (pure value) :=
  fun _ _ _ refused => nomatch refused

theorem reports_modifyGet (change : Parser → α × Parser) : Reports (modifyGet change) :=
  fun _ _ _ refused => nomatch refused

theorem Reports.bind {step : Parse α} {next : α → Parse β} (reports : step.Reports)
    (rest : ∀ value, (next value).Reports) : Reports (step >>= next) := by
  intro parser error after refused
  change EStateM.bind step next parser = .error error after at refused
  rw [EStateM.bind] at refused
  cases outcome : step parser with
  | ok value between =>
    rw [outcome] at refused
    exact rest value between error after refused
  | error early between =>
    rw [outcome] at refused
    obtain ⟨rfl, rfl⟩ := EStateM.Result.error.inj refused
    exact reports parser early between outcome

theorem reports_ite {condition : Prop} [Decidable condition] {yes no : Parse α}
    (whenTrue : yes.Reports) (whenFalse : no.Reports) :
    Reports (if condition then yes else no) := by
  split
  · exact whenTrue
  · exact whenFalse

theorem reports_inspect (view : Parser → α) : (inspect view).Reports :=
  reports_modifyGet _

theorem reports_modify (change : Parser → Parser) : Reports (modify change : Parse Unit) :=
  reports_modifyGet _

theorem reports_eat (mark : String) : (eat mark).Reports :=
  (reports_inspect _).bind fun _ =>
    reports_ite ((reports_modify _).bind fun _ => reports_pure true) (reports_pure false)

theorem reports_expect (mark : String) : (expect mark).Reports := by
  refine (reports_eat mark).bind fun found => reports_ite ?_ (reports_pure ())
  exact (reports_inspect _).bind fun token => reports_modify _

/-! ### Repetitions -/

variable {statement expression : Parse Node}

theorem reports_statementsWithin (reports : statement.Reports) (stops : Token → Bool)
    (allowance : List Token) : (statementsWithin statement stops allowance).Reports := by
  induction allowance with
  | nil => exact reports_pure []
  | cons _ allowance ih =>
    refine (reports_modify _).bind fun _ => (reports_inspect _).bind fun _ => ?_
    refine reports_ite (reports_pure []) ((reports_inspect _).bind fun start => ?_)
    refine reports.bind fun node => (reports_modify _).bind fun _ => ih.bind fun nodes => ?_
    exact reports_pure (node :: nodes)

theorem reports_statements (reports : statement.Reports) (stops : Token → Bool) :
    (statements statement stops).Reports :=
  (reports_inspect _).bind fun allowance => reports_statementsWithin reports stops allowance

theorem reports_argumentsWithin (reports : expression.Reports) (allowance : List Token) :
    (argumentsWithin expression allowance).Reports := by
  induction allowance with
  | nil => exact reports_pure []
  | cons _ allowance ih =>
    refine (reports_inspect _).bind fun _ => reports_ite (reports_pure []) ?_
    refine (reports_inspect _).bind fun start => reports.bind fun node => ?_
    refine (reports_eat ",").bind fun _ => (reports_modify _).bind fun _ => ih.bind fun nodes => ?_
    exact reports_pure (node :: nodes)

/-! ### Statements and primaries -/

theorem reports_elsePart (reports : statement.Reports) (condition thenBranch : Node) :
    (elsePart statement condition thenBranch).Reports := by
  refine (reports_modify _).bind fun _ => (reports_inspect _).bind fun token => ?_
  refine reports_ite ((reports_modify _).bind fun _ => ?_) (reports_pure _)
  exact reports.bind fun elseBranch => reports_pure _

theorem reports_statementBody (ofStatement : statement.Reports)
    (ofExpression : expression.Reports) : (statementBody statement expression).Reports := by
  refine (reports_inspect _).bind fun token => ?_
  refine reports_ite ?_ (reports_ite ?_ (reports_ite ?_ ofExpression))
  · refine (reports_modify _).bind fun _ => (reports_expect "(").bind fun _ => ?_
    refine ofExpression.bind fun condition => (reports_expect ")").bind fun _ => ?_
    exact ofStatement.bind fun thenBranch => reports_elsePart ofStatement condition thenBranch
  · refine (reports_modify _).bind fun _ => (reports_expect "(").bind fun _ => ?_
    refine ofExpression.bind fun condition => (reports_expect ")").bind fun _ => ?_
    exact ofStatement.bind fun body => reports_pure _
  · refine (reports_modify _).bind fun _ => (reports_statements ofStatement _).bind fun body => ?_
    exact (reports_expect _).bind fun _ => reports_pure _

theorem reports_bareName (name : String) : (bareName name).Reports := by
  rw [bareName]
  split
  · exact reports_pure _
  · split
    · exact reports_pure _
    · exact (reports_modifyGet _).bind fun symbol => reports_pure _

theorem reports_afterName (reports : expression.Reports) (name : String) :
    (afterName expression name).Reports := by
  refine (reports_eat "(").bind fun _ => reports_ite ?_ ?_
  · refine ((reports_inspect _).bind fun allowance => ?_).bind fun arguments => ?_
    · exact reports_argumentsWithin reports allowance
    · refine (reports_expect ")").bind fun _ => (reports_modifyGet _).bind fun function => ?_
      exact reports_pure _
  · refine (reports_eat "[").bind fun _ => reports_ite ?_ (reports_bareName name)
    exact reports.bind fun index => (reports_expect "]").bind fun _ => reports_pure _

theorem reports_parenthesized (reports : statement.Reports) :
    (parenthesized statement).Reports := by
  refine reports.bind fun first => (reports_inspect _).bind fun token => reports_ite ?_ ?_
  · refine (reports_statements reports _).bind fun more => (reports_expect ")").bind fun _ => ?_
    exact reports_pure _
  · exact (reports_expect ")").bind fun _ => reports_pure first

theorem reports_missingOperand (token : Token) : (missingOperand token).Reports :=
  (reports_modify _).bind fun _ => reports_pure _

theorem reports_primary (ofStatement : statement.Reports) (ofExpression : expression.Reports) :
    (primary statement expression).Reports := by
  refine (reports_inspect _).bind fun token => ?_
  have missing := reports_missingOperand token
  split
  · exact (reports_modify _).bind fun _ => reports_pure _
  · exact (reports_modify _).bind fun _ => reports_pure _
  · refine reports_ite missing ((reports_modify _).bind fun _ => ?_)
    exact reports_afterName ofExpression token.text
  · exact reports_ite ofStatement missing
  · refine reports_ite ((reports_modify _).bind fun _ => ?_) missing
    exact reports_parenthesized ofStatement
  · exact missing

/-! ### Expressions -/

variable {unary deeper : Parse Node} {run : Node → Parse Node}

theorem reports_expressionBody (ofUnary : unary.Reports) (ofRun : ∀ left, (run left).Reports)
    (ofExpression : expression.Reports) : (expressionBody unary run expression).Reports := by
  refine Reports.bind ?_ fun target => (reports_inspect _).bind fun token => ?_
  · refine ofUnary.bind fun first => (ofRun first).bind fun condition => ?_
    refine (reports_inspect _).bind fun token => reports_ite ?_ (reports_pure condition)
    refine (reports_modify _).bind fun _ => ofExpression.bind fun thenBranch => ?_
    refine (reports_eat ":").bind fun _ => reports_ite ?_ (reports_pure _)
    exact ofExpression.bind fun elseBranch => reports_pure _
  · split
    · exact (reports_modify _).bind fun _ => ofExpression.bind fun value => reports_pure _
    · exact reports_pure target

theorem reports_unaryBody (ofDeeper : deeper.Reports) (ofStatement : statement.Reports)
    (ofExpression : expression.Reports) : (unaryBody deeper statement expression).Reports := by
  refine (reports_inspect _).bind fun token => ?_
  split
  · exact ofDeeper.bind fun operand => reports_pure _
  · exact reports_primary ofStatement ofExpression

theorem reports_runBody {deeper : BinaryOp → Node → Parse Node}
    (ofDeeper : ∀ op left, (deeper op left).Reports) (left : Node) :
    (runBody deeper left).Reports := by
  refine (reports_inspect _).bind fun token => ?_
  split
  · exact ofDeeper _ left
  · exact reports_pure left

end Parse

/-! ### The grammar at every budget -/

/-- The parsers of one level report where they refuse. -/
structure Grammar.Reports (level : Grammar) : Prop where
  statement : level.statement.Reports
  expression : level.expression.Reports
  unary : level.unary.Reports
  run (left : Node) : (level.run left).Reports

theorem Grammar.reports_exhausted : exhausted.Reports where
  statement := Parse.reports_refuse
  expression := Parse.reports_refuse
  unary := Parse.reports_unaryBody Parse.reports_refuse Parse.reports_refuse Parse.reports_refuse
  run := Parse.reports_runBody fun _ _ => Parse.reports_refuse

theorem Grammar.Reports.deepen {below : Grammar} (reports : below.Reports) :
    below.deepen.Reports := by
  have statement := Parse.reports_statementBody reports.statement reports.expression
  have expression := Parse.reports_expressionBody reports.unary reports.run reports.expression
  refine ⟨statement, expression, Parse.reports_unaryBody ?_ statement expression,
    Parse.reports_runBody fun op left => ?_⟩
  · exact (Parse.reports_modify _).bind fun _ => reports.unary
  · exact (Parse.reports_modify _).bind fun _ => reports.unary.bind fun right => reports.run _

theorem reports_grammar (budget : Nat) : (grammar budget).Reports := by
  induction budget with
  | zero => exact Grammar.reports_exhausted
  | succ budget ih => exact ih.deepen

/-! ### Programs -/

namespace Parse

variable {α : Type}

theorem reports_itemsWithin {statement : Parse Node} (reports : statement.Reports)
    (allowance : List Token) : (itemsWithin statement allowance).Reports := by
  induction allowance with
  | nil => exact reports_pure []
  | cons _ allowance ih =>
    refine (reports_modify _).bind fun _ => (reports_inspect _).bind fun _ => ?_
    refine reports_ite (reports_pure []) ((reports_inspect _).bind fun token => reports_ite ?_ ?_)
    · refine Reports.bind ?_ fun item => ih.bind fun items => reports_pure _
      refine (reports_inspect _).bind fun token => (reports_modify _).bind fun _ => ?_
      exact (reports_statements reports _).bind fun body => reports_pure _
    · refine (reports_inspect _).bind fun start => reports.bind fun item => ?_
      exact (reports_modify _).bind fun _ => ih.bind fun items => reports_pure _

theorem reports_program : program.Reports := by
  intro parser error after refused
  -- Which level is used depends on the parser, so it is fixed before the step is taken apart.
  have items := reports_itemsWithin (reports_grammar (nestingLimit - parser.depth)).statement
    parser.allowance
  exact items.bind (fun items => reports_modifyGet _) parser error after refused

theorem Reports.run_error {step : Parse α} (reports : step.Reports) {parser : Parser}
    {error : NestingError} (outcome : (parser.run step).1 = .error error) :
    error = (parser.run step).2.refusal := by
  unfold Parser.run EStateM.run at *
  cases result : step parser with
  | ok value after =>
    rw [result] at outcome
    contradiction
  | error refusal after =>
    rw [result] at outcome
    obtain rfl := Except.error.inj outcome
    exact reports parser refusal after result

theorem ensures_program_consumes (parser : Parser) :
    program.Ensures parser (fun _ _ => True) parser.Consumes := by
  rw [ensures_program]
  have governs := (MoveLaw.consumption.grammar (nestingLimit - parser.depth)).statement
  have marks (parser : Parser) (name : String) :
      MoveLaw.consumption.moves parser [.marker name] parser := Parser.Consumes.refl parser
  exact (MoveLaw.governs_itemsWithin marks governs parser.allowance parser).imp
    (fun _ _ _ => trivial) fun _ => id

end Parse

/-! ### The token of a refusal -/

namespace Parser

theorem Consumes.current_cases {before after : Parser} (consumes : before.Consumes after) :
    after.current ∈ before.rest ∨ after.current = before.finish := by
  rw [current]
  cases remaining : after.rest with
  | nil => exact .inr consumes.finish_eq
  | cons token rest =>
    have suffix := consumes.suffix
    rw [remaining] at suffix
    exact .inl (suffix.subset List.mem_cons_self)

/-- The tokens of a parser for tokens of which only the last one ends the source. -/
theorem ofTokens_concat {tokens : List Token} {last : Token}
    (inside : ∀ token ∈ tokens, token.isEndOfFile = false) (ends : last.kind = .endOfFile) :
    (ofTokens (tokens ++ [last])).rest = tokens.filter (fun token => !token.isTrivia) ∧
      (ofTokens (tokens ++ [last])).finish = last := by
  have atEnd : last.isEndOfFile = true := by simp [Token.isEndOfFile, ends]
  have kept : [last].filter (fun token => !token.isTrivia) = [last] := by
    simp [Token.isTrivia, ends]
  have goesOn : ∀ token ∈ tokens.filter (fun token => !token.isTrivia),
      token.isEndOfFile = false :=
    fun token member => inside token (List.mem_filter.1 member).1
  simp only [ofTokens, List.filter_append, kept]
  constructor
  · rw [List.takeWhile_append_of_pos fun token member => by rw [goesOn token member]; rfl]
    simp [atEnd]
  · have none : (tokens.filter (fun token => !token.isTrivia)).find? Token.isEndOfFile = none :=
      List.find?_eq_none.2 fun token member => by simp [goesOn token member]
    rw [List.find?_append, none]
    simp [atEnd]

/-- A parser that is refused stands at a token of its source that means something, or at the end. -/
theorem refused_at {tokens : List Token} {last : Token} {error : NestingError}
    (inside : ∀ token ∈ tokens, token.isEndOfFile = false) (ends : last.kind = .endOfFile)
    (refused : ((ofTokens (tokens ++ [last])).run Parse.program).1 = .error error) :
    error = ((ofTokens (tokens ++ [last])).run Parse.program).2.refusal ∧
      ((∃ token ∈ tokens, token.isTrivia = false ∧
          ((ofTokens (tokens ++ [last])).run Parse.program).2.current = token) ∨
        ((ofTokens (tokens ++ [last])).run Parse.program).2.current = last) := by
  refine ⟨Parse.reports_program.run_error refused, ?_⟩
  have consumes := (Parse.ensures_program_consumes _).run_error refused
  obtain ⟨rest, finish⟩ := ofTokens_concat inside ends
  rcases consumes.current_cases with member | atEnd
  · rw [rest, List.mem_filter] at member
    exact .inl ⟨_, member.1, by simpa using member.2, rfl⟩
  · exact .inr (atEnd.trans finish)

end Parser

end EffectScript.Language
