import EffectScript.Proofs.ParseStep

/-!
# Laws that the whole grammar obeys

The grammar is built from few moves of a parser: passing a token, noting a message, numbering a
name.  A `MoveLaw` is a relation between parsers that these moves respect and that composes; it also
sees the names that the tree under construction mentions.  `MoveLaw.grammar` says that a law of the
moves is a law of every parser of the grammar, at every budget.
-/

namespace EffectScript.Language

/-! ### Mentions -/

/-- A name as a tree mentions it. -/
inductive Mention where
  /-- A variable of the script with its number. -/
  | symbol (name : String) (number : Nat)
  | host (var : HostVar)
  /-- A called function with its number. -/
  | function (name : String) (number : Nat)
  /-- A section. -/
  | marker (name : String)
  deriving DecidableEq, Repr

/-- What a variable mentions. -/
def Var.mention : Var → Mention
  | .host var => .host var
  | .named name symbol => .symbol name symbol

mutual

/-- What a tree mentions, in the order in which a parser meets it; a called function is met behind
its arguments. -/
@[simp]
def Node.mentions : Node → List Mention
  | .sectionOf name body => .marker name :: mentionsAll body
  | .assign _ target value => target.mentions ++ value.mentions
  | .binary _ left right => left.mentions ++ right.mentions
  | .unary _ operand => operand.mentions
  | .call name function arguments => mentionsAll arguments ++ [.function name function]
  | .var var => [var.mention]
  | .element _ index => index.mentions
  | .number _ => []
  | .string _ => []
  | .ifThen condition thenBranch => condition.mentions ++ thenBranch.mentions
  | .ifThenElse condition thenBranch elseBranch =>
    condition.mentions ++ thenBranch.mentions ++ elseBranch.mentions
  | .whileLoop condition body => condition.mentions ++ body.mentions
  | .block body => mentionsAll body

/-- What trees in sequence mention. -/
@[simp]
def mentionsAll : List Node → List Mention
  | [] => []
  | node :: rest => node.mentions ++ mentionsAll rest

end

theorem mem_mentionsAll {node : Node} {nodes : List Node} {mention : Mention}
    (member : node ∈ nodes) (mentioned : mention ∈ node.mentions) :
    mention ∈ mentionsAll nodes := by
  induction nodes with
  | nil => contradiction
  | cons head rest ih =>
    rw [mentionsAll, List.mem_append]
    rcases List.mem_cons.1 member with rfl | member
    · exact .inl mentioned
    · exact .inr (ih member)

/-! ### Trees without numbers -/

/-- A variable without its number. -/
def Var.unnumbered : Var → Var
  | .host var => .host var
  | .named name _ => .named name 0

mutual

/-- A tree without the numbers of its names. -/
@[simp]
def Node.unnumbered : Node → Node
  | .sectionOf name body => .sectionOf name (unnumberedAll body)
  | .assign op target value => .assign op target.unnumbered value.unnumbered
  | .binary op left right => .binary op left.unnumbered right.unnumbered
  | .unary op operand => .unary op operand.unnumbered
  | .call name _ arguments => .call name 0 (unnumberedAll arguments)
  | .var var => .var var.unnumbered
  | .element name index => .element name index.unnumbered
  | .number value => .number value
  | .string text => .string text
  | .ifThen condition thenBranch => .ifThen condition.unnumbered thenBranch.unnumbered
  | .ifThenElse condition thenBranch elseBranch =>
    .ifThenElse condition.unnumbered thenBranch.unnumbered elseBranch.unnumbered
  | .whileLoop condition body => .whileLoop condition.unnumbered body.unnumbered
  | .block body => .block (unnumberedAll body)

/-- Trees in sequence without the numbers of their names. -/
@[simp]
def unnumberedAll : List Node → List Node
  | [] => []
  | node :: rest => node.unnumbered :: unnumberedAll rest

end

/-! ### Laws of moves -/

/-- A relation between parsers that every move of a parser respects. -/
structure MoveLaw where
  /-- Between two parsers lie moves on which the given mentions are made. -/
  moves : Parser → List Mention → Parser → Prop
  /-- Between two parsers lie moves that end in a refusal. -/
  fails : Parser → Parser → Prop
  refl (parser : Parser) : moves parser [] parser
  trans {first second third : Parser} {early late : List Mention} :
    moves first early second → moves second late third → moves first (early ++ late) third
  fails_of_moves {first second third : Parser} {early : List Mention} :
    moves first early second → fails second third → fails first third
  refuse (parser : Parser) : fails parser { parser with depth := parser.depth + 1 }
  advance (parser : Parser) : moves parser [] parser.advance
  note (message : String) (parser : Parser) : moves parser [] (parser.note message)
  symbol (parser : Parser) {name : String} : constant? name = none → HostVar.ofName? name = none →
    moves parser [.symbol name (parser.symbols.intern name).1]
      { parser with symbols := (parser.symbols.intern name).2 }
  host (parser : Parser) {name : String} {var : HostVar} : HostVar.ofName? name = some var →
    moves parser [.host var] parser
  function (parser : Parser) (name : String) :
    moves parser [.function name (parser.functions.intern name).1]
      { parser with functions := (parser.functions.intern name).2 }

namespace MoveLaw

variable (law : MoveLaw) {α : Type}

/-- A step obeys the law and makes the mentions of its value. -/
def Governs (mentions : α → List Mention) (step : Parse α) : Prop :=
  ∀ parser, step.Ensures parser (fun value after => law.moves parser (mentions value) after)
    (law.fails parser)

/-- A step obeys the law and mentions nothing. -/
def GovernsSilently (step : Parse α) : Prop :=
  law.Governs (fun _ => []) step

variable {law} {start parser : Parser} {sofar : List Mention}

/-- Moves so far, and then a governed step. -/
theorem Governs.next {mentions : α → List Mention} {step : Parse α}
    (governs : law.Governs mentions step) (moved : law.moves start sofar parser)
    {good : α → Parser → Prop}
    (rest : ∀ value after, law.moves start (sofar ++ mentions value) after → good value after) :
    step.Ensures parser good (law.fails start) :=
  (governs parser).imp
    (fun value after move => rest value after (law.trans moved move))
    (fun _ refused => law.fails_of_moves moved refused)

/-- Moves so far, and then a silent step. -/
theorem GovernsSilently.next {step : Parse α} (governs : law.GovernsSilently step)
    (moved : law.moves start sofar parser) {good : α → Parser → Prop}
    (rest : ∀ value after, law.moves start sofar after → good value after) :
    step.Ensures parser good (law.fails start) :=
  Governs.next governs moved fun value after move =>
    rest value after (by simpa using move)

/-! ### Moves without mentions -/

theorem moves_advance (moved : law.moves start sofar parser) :
    law.moves start sofar parser.advance := by
  simpa using law.trans moved (law.advance parser)

theorem moves_note (message : String) (moved : law.moves start sofar parser) :
    law.moves start sofar (parser.note message) := by
  simpa using law.trans moved (law.note message parser)

theorem moves_ensureProgress (first : Nat) (moved : law.moves start sofar parser) :
    law.moves start sofar (parser.ensureProgress first) := by
  rw [Parser.ensureProgress]
  split
  · exact moves_note _ (moves_advance moved)
  · exact moved

theorem moves_skipBeforeElse (moved : law.moves start sofar parser) :
    law.moves start sofar parser.skipBeforeElse := by
  rw [Parser.skipBeforeElse]
  split
  · exact moves_advance moved
  · exact moved

theorem governs_expect (mark : String) : law.GovernsSilently (Parse.expect mark) := by
  intro parser
  rw [Parse.expect]
  simp only [Parse.ensures_bind, Parse.ensures_eat]
  split
  · simpa using law.advance parser
  · simpa using law.note _ parser

theorem governs_eat (mark : String) : law.GovernsSilently (Parse.eat mark) := by
  intro parser
  simp only [Parse.ensures_eat]
  split
  · exact law.advance parser
  · exact law.refl parser

theorem moves_skipSeparators (moved : law.moves start sofar parser) :
    law.moves start sofar parser.skipSeparators := by
  induction remaining : parser.rest generalizing parser with
  | nil => rwa [Parser.skipSeparators_of_nil remaining]
  | cons token rest ih =>
    by_cases separator : token.isPunctuation ";"
    · rw [Parser.skipSeparators_of_cons remaining separator]
      exact ih (moves_advance moved) (by simp [Parser.advance, remaining])
    · rwa [Parser.skipSeparators_of_not remaining separator]

/-! ### Repetitions -/

theorem governs_statementsWithin {statement : Parse Node}
    (governs : law.Governs Node.mentions statement) (stops : Token → Bool)
    (allowance : List Token) :
    law.Governs mentionsAll (Parse.statementsWithin statement stops allowance) := by
  induction allowance with
  | nil => exact fun parser => law.refl parser
  | cons _ allowance ih =>
    intro parser
    rw [Parse.statementsWithin]
    simp only [Parse.ensures_bind, Parse.ensures_modify, Parse.ensures_inspect]
    have skipped := moves_skipSeparators (law.refl parser)
    split
    · exact skipped
    · simp only [Parse.ensures_bind, Parse.ensures_inspect, Parse.ensures_modify]
      refine governs.next skipped fun node after move => ?_
      refine ih.next (moves_ensureProgress _ move) fun nodes after move => ?_
      simpa using move

theorem governs_statements {statement : Parse Node}
    (governs : law.Governs Node.mentions statement) (stops : Token → Bool) :
    law.Governs mentionsAll (Parse.statements statement stops) :=
  fun parser => governs_statementsWithin governs stops parser.allowance parser

theorem governs_argumentsWithin {expression : Parse Node}
    (governs : law.Governs Node.mentions expression) (allowance : List Token) :
    law.Governs mentionsAll (Parse.argumentsWithin expression allowance) := by
  induction allowance with
  | nil => exact fun parser => law.refl parser
  | cons _ allowance ih =>
    intro parser
    rw [Parse.argumentsWithin]
    simp only [Parse.ensures_bind, Parse.ensures_inspect]
    split
    · exact law.refl parser
    · simp only [Parse.ensures_bind, Parse.ensures_inspect, Parse.ensures_modify]
      refine governs.next (law.refl parser) fun node after move => ?_
      refine (governs_eat ",").next move fun _ after move => ?_
      refine ih.next (moves_ensureProgress _ move) fun nodes after move => ?_
      simpa using move

theorem governs_arguments {expression : Parse Node}
    (governs : law.Governs Node.mentions expression) :
    law.Governs mentionsAll (Parse.arguments expression) :=
  fun parser => governs_argumentsWithin governs parser.allowance parser

/-! ### Statements and primaries -/

section Levels

variable {statement expression : Parse Node}

theorem governs_elsePart (governs : law.Governs Node.mentions statement)
    (condition thenBranch : Node)
    (moved : law.moves start (condition.mentions ++ thenBranch.mentions) parser) :
    (Parse.elsePart statement condition thenBranch).Ensures parser
      (fun node after => law.moves start node.mentions after) (law.fails start) := by
  rw [Parse.elsePart]
  simp only [Parse.ensures_bind, Parse.ensures_modify, Parse.ensures_current]
  have passed := moves_skipBeforeElse moved
  split
  · simp only [Parse.ensures_bind, Parse.ensures_advance]
    refine governs.next (moves_advance passed) fun elseBranch after move => ?_
    simpa using move
  · simpa using passed

theorem governs_ifStatement (governsStatement : law.Governs Node.mentions statement)
    (governsExpression : law.Governs Node.mentions expression) :
    law.Governs Node.mentions (Parse.ifStatement statement expression) := by
  intro parser
  rw [Parse.ifStatement]
  simp only [Parse.ensures_bind, Parse.ensures_advance]
  refine (governs_expect "(").next (moves_advance (law.refl parser)) fun _ after move => ?_
  refine governsExpression.next move fun condition after move => ?_
  refine (governs_expect ")").next move fun _ after move => ?_
  refine governsStatement.next move fun thenBranch after move => ?_
  exact governs_elsePart governsStatement condition thenBranch (by simpa using move)

theorem governs_whileStatement (governsStatement : law.Governs Node.mentions statement)
    (governsExpression : law.Governs Node.mentions expression) :
    law.Governs Node.mentions (Parse.whileStatement statement expression) := by
  intro parser
  rw [Parse.whileStatement]
  simp only [Parse.ensures_bind, Parse.ensures_advance]
  refine (governs_expect "(").next (moves_advance (law.refl parser)) fun _ after move => ?_
  refine governsExpression.next move fun condition after move => ?_
  refine (governs_expect ")").next move fun _ after move => ?_
  refine governsStatement.next move fun body after move => ?_
  simpa using move

theorem governs_bracedBlock (governs : law.Governs Node.mentions statement) :
    law.Governs Node.mentions (Parse.bracedBlock statement) := by
  intro parser
  rw [Parse.bracedBlock]
  simp only [Parse.ensures_bind, Parse.ensures_advance]
  refine (governs_statements governs _).next (moves_advance (law.refl parser))
    fun body after move => ?_
  refine (governs_expect "\x7d").next move fun _ after move => ?_
  simpa using move

theorem governs_statementBody (governsStatement : law.Governs Node.mentions statement)
    (governsExpression : law.Governs Node.mentions expression) :
    law.Governs Node.mentions (Parse.statementBody statement expression) := by
  intro parser
  rw [Parse.statementBody]
  simp only [Parse.ensures_bind, Parse.ensures_current, Parse.ensures_ite]
  split
  · exact governs_ifStatement governsStatement governsExpression parser
  · split
    · exact governs_whileStatement governsStatement governsExpression parser
    · split
      · exact governs_bracedBlock governsStatement parser
      · exact governsExpression parser

theorem governs_bareName (name : String) : law.Governs Node.mentions (Parse.bareName name) := by
  intro parser
  rw [Parse.bareName]
  cases isConstant : constant? name with
  | some value => exact law.refl parser
  | none =>
    cases isHost : HostVar.ofName? name with
    | some var => exact law.host parser isHost
    | none => exact law.symbol parser isConstant isHost

theorem governs_afterName (governs : law.Governs Node.mentions expression) (name : String) :
    law.Governs Node.mentions (Parse.afterName expression name) := by
  intro parser
  rw [Parse.afterName]
  simp only [Parse.ensures_bind]
  refine (governs_eat "(").next (law.refl parser) fun called after move => ?_
  cases called with
  | true =>
    simp only [if_true, Parse.ensures_bind, Parse.ensures_internFunction, Parse.ensures_pure]
    refine (governs_arguments governs).next move fun arguments after move => ?_
    refine (governs_expect ")").next move fun _ after move => ?_
    simpa using law.trans move (law.function after name)
  | false =>
    simp only [Bool.false_eq_true, if_false, Parse.ensures_bind]
    refine (governs_eat "[").next move fun indexed after move => ?_
    cases indexed with
    | true =>
      simp only [if_true, Parse.ensures_bind]
      refine governs.next move fun index after move => ?_
      refine (governs_expect "]").next move fun _ after move => ?_
      simpa using move
    | false =>
      simp only [Bool.false_eq_true, if_false]
      exact (governs_bareName name).next move fun node after move => by simpa using move

theorem governs_parenthesized (governs : law.Governs Node.mentions statement) :
    law.Governs Node.mentions (Parse.parenthesized statement) := by
  intro parser
  rw [Parse.parenthesized]
  simp only [Parse.ensures_bind, Parse.ensures_current]
  refine governs.next (law.refl parser) fun first after move => ?_
  split
  · simp only [Parse.ensures_bind]
    refine (governs_statements governs _).next move fun more after move => ?_
    refine (governs_expect ")").next move fun _ after move => ?_
    simpa using move
  · simp only [Parse.ensures_bind]
    refine (governs_expect ")").next move fun _ after move => ?_
    simpa using move

theorem governs_missingOperand (token : Token) :
    law.Governs Node.mentions (Parse.missingOperand token) :=
  fun parser => law.note _ parser

theorem governs_primary (governsStatement : law.Governs Node.mentions statement)
    (governsExpression : law.Governs Node.mentions expression) :
    law.Governs Node.mentions (Parse.primary statement expression) := by
  intro parser
  rw [Parse.primary]
  simp only [Parse.ensures_bind, Parse.ensures_current]
  have passed := law.advance parser
  cases parser.current.kind with
  | number => exact passed
  | string => exact passed
  | identifier =>
    simp only [Parse.ensures_ite, Parse.ensures_bind, Parse.ensures_advance]
    split
    · exact governs_missingOperand _ parser
    · refine (governs_afterName governsExpression _).next passed fun node after move => ?_
      simpa using move
  | keyword =>
    simp only [Parse.ensures_ite]
    split
    · exact governsStatement parser
    · exact governs_missingOperand _ parser
  | punctuation =>
    simp only [Parse.ensures_ite, Parse.ensures_bind, Parse.ensures_advance]
    split
    · refine (governs_parenthesized governsStatement).next passed fun node after move => ?_
      simpa using move
    · exact governs_missingOperand _ parser
  | operator | comment | newline | endOfFile => exact governs_missingOperand _ parser

/-! ### Expressions -/

/-- From moves that made the mentions of a left operand, a run of binary operators makes those of
its tree. -/
def Continues (law : MoveLaw) (run : Node → Parse Node) : Prop :=
  ∀ {start : Parser} (left : Node) (parser : Parser), law.moves start left.mentions parser →
    (run left).Ensures parser (fun node after => law.moves start node.mentions after)
      (law.fails start)

variable {unary : Parse Node} {run : Node → Parse Node}

theorem governs_conditional (governsUnary : law.Governs Node.mentions unary)
    (continues : law.Continues run) (governsExpression : law.Governs Node.mentions expression) :
    law.Governs Node.mentions (Parse.conditional unary run expression) := by
  intro parser
  rw [Parse.conditional]
  simp only [Parse.ensures_bind, Parse.ensures_current]
  refine governsUnary.next (law.refl parser) fun left after move => ?_
  refine (continues left after (by simpa using move)).imp (fun condition after move => ?_)
    fun _ => id
  split
  · simp only [Parse.ensures_bind, Parse.ensures_advance]
    refine governsExpression.next (moves_advance move) fun thenBranch after move => ?_
    refine (governs_eat ":").next move fun found after move => ?_
    cases found with
    | true =>
      simp only [if_true, Parse.ensures_bind]
      refine governsExpression.next move fun elseBranch after move => ?_
      simpa using move
    | false => simpa using move
  · exact move

theorem governs_expressionBody (governsUnary : law.Governs Node.mentions unary)
    (continues : law.Continues run) (governsExpression : law.Governs Node.mentions expression) :
    law.Governs Node.mentions (Parse.expressionBody unary run expression) := by
  intro parser
  rw [Parse.expressionBody]
  simp only [Parse.ensures_bind, Parse.ensures_current]
  refine (governs_conditional governsUnary continues governsExpression).next (law.refl parser)
    fun target after move => ?_
  cases after.current.operator? AssignOp.ofSymbol? with
  | some op =>
    simp only [Parse.ensures_bind, Parse.ensures_advance]
    refine governsExpression.next (moves_advance move) fun value after move => ?_
    simpa using move
  | none => simpa using move

theorem governs_unaryBody {deeper : Parse Node} (governsDeeper : law.Governs Node.mentions deeper)
    (governsStatement : law.Governs Node.mentions statement)
    (governsExpression : law.Governs Node.mentions expression) :
    law.Governs Node.mentions (Parse.unaryBody deeper statement expression) := by
  intro parser
  rw [Parse.unaryBody]
  simp only [Parse.ensures_bind, Parse.ensures_current]
  cases parser.current.operator? UnaryOp.ofSymbol? with
  | some op => simpa using governsDeeper parser
  | none => exact governs_primary governsStatement governsExpression parser

theorem continues_runBody {deeper : BinaryOp → Node → Parse Node}
    (governsDeeper : ∀ op, law.Continues (deeper op)) : law.Continues (Parse.runBody deeper) := by
  intro start left parser moved
  rw [Parse.runBody]
  simp only [Parse.ensures_bind, Parse.ensures_current]
  cases parser.current.operator? BinaryOp.ofSymbol? with
  | some op => exact governsDeeper op left parser moved
  | none => exact moved

end Levels

/-! ### The grammar at every budget -/

theorem governs_refuse : law.Governs Node.mentions Parse.refuse :=
  fun parser => law.refuse parser

theorem continues_refuse : law.Continues fun _ => Parse.refuse := by
  intro start left parser moved
  rw [Parse.ensures_refuse]
  exact law.fails_of_moves moved (law.refuse parser)

/-- The parsers of one level obey the law. -/
structure GovernsLevel (law : MoveLaw) (level : Grammar) : Prop where
  statement : law.Governs Node.mentions level.statement
  expression : law.Governs Node.mentions level.expression
  unary : law.Governs Node.mentions level.unary
  run : law.Continues level.run

theorem governsLevel_exhausted : law.GovernsLevel .exhausted where
  statement := governs_refuse
  expression := governs_refuse
  unary := governs_unaryBody governs_refuse governs_refuse governs_refuse
  run := continues_runBody fun _ => continues_refuse

theorem GovernsLevel.deepen {below : Grammar} (governs : law.GovernsLevel below) :
    law.GovernsLevel below.deepen := by
  have statement := governs_statementBody governs.statement governs.expression
  have expression := governs_expressionBody governs.unary governs.run governs.expression
  refine ⟨statement, expression, governs_unaryBody ?_ statement expression,
    continues_runBody fun op start left parser moved => ?_⟩
  · intro parser
    simp only [Parse.ensures_bind, Parse.ensures_advance]
    refine governs.unary.next (law.advance parser) fun node after move => ?_
    simpa using move
  · simp only [Parse.ensures_bind, Parse.ensures_advance]
    refine governs.unary.next (moves_advance moved) fun right after move => ?_
    exact governs.run _ after (by simpa using move)

variable (law) in
/-- A law of the moves is a law of every parser of the grammar. -/
theorem grammar (budget : Nat) : law.GovernsLevel (grammar budget) := by
  induction budget with
  | zero => exact governsLevel_exhausted
  | succ budget ih => exact ih.deepen

/-! ### Items -/

theorem governs_sectionItem {statement : Parse Node}
    (marks : ∀ parser name, law.moves parser [.marker name] parser)
    (governs : law.Governs Node.mentions statement) :
    law.Governs Node.mentions (Parse.sectionItem statement) := by
  intro parser
  rw [Parse.sectionItem]
  simp only [Parse.ensures_bind, Parse.ensures_current, Parse.ensures_advance]
  refine (governs_statements governs _).next (moves_advance (marks parser parser.current.text))
    fun body after move => ?_
  simpa using move

theorem governs_itemsWithin {statement : Parse Node}
    (marks : ∀ parser name, law.moves parser [.marker name] parser)
    (governs : law.Governs Node.mentions statement) (allowance : List Token) :
    law.Governs mentionsAll (Parse.itemsWithin statement allowance) := by
  induction allowance with
  | nil => exact fun parser => law.refl parser
  | cons _ allowance ih =>
    intro parser
    rw [Parse.itemsWithin]
    simp only [Parse.ensures_bind, Parse.ensures_modify, Parse.ensures_inspect]
    have skipped := moves_skipSeparators (law.refl parser)
    split
    · exact skipped
    · simp only [Parse.ensures_bind, Parse.ensures_current]
      split
      · simp only [Parse.ensures_bind]
        refine (governs_sectionItem marks governs).next skipped fun item after move => ?_
        refine ih.next move fun items after move => ?_
        simpa using move
      · simp only [Parse.ensures_bind, Parse.ensures_inspect, Parse.ensures_modify]
        refine governs.next skipped fun item after move => ?_
        refine ih.next (moves_ensureProgress _ move) fun items after move => ?_
        simpa using move

end MoveLaw

/-! ### Tokens are only consumed -/

/-- A later parser: it stands further on in the same tokens, and counts what lies between. -/
structure Parser.Consumes (before after : Parser) : Prop where
  suffix : after.rest <:+ before.rest
  finish_eq : after.finish = before.finish
  balance : after.consumed + after.rest.length = before.consumed + before.rest.length

namespace Parser.Consumes

theorem refl (parser : Parser) : parser.Consumes parser :=
  ⟨List.suffix_refl _, rfl, rfl⟩

theorem trans {first second third : Parser} (earlier : first.Consumes second)
    (later : second.Consumes third) : first.Consumes third :=
  ⟨later.suffix.trans earlier.suffix, later.finish_eq.trans earlier.finish_eq,
    later.balance.trans earlier.balance⟩

theorem advance (parser : Parser) : parser.Consumes parser.advance := by
  rw [Parser.advance]
  split
  · exact refl parser
  · rename_i token rest remaining
    refine ⟨?_, rfl, ?_⟩
    · rw [remaining]
      exact List.suffix_cons token rest
    · simp only [remaining, List.length_cons]
      omega

theorem length_le {before after : Parser} (consumes : before.Consumes after) :
    after.rest.length ≤ before.rest.length :=
  consumes.suffix.length_le

/-- A forced move leaves fewer tokens than there were before it. -/
theorem ensureProgress_length {before after : Parser} (consumes : before.Consumes after)
    (remaining : before.rest ≠ []) :
    (after.ensureProgress before.consumed).rest.length < before.rest.length := by
  have balance := consumes.balance
  have positive := List.length_pos_iff.2 remaining
  rw [Parser.ensureProgress]
  split
  -- A stuck parser is moved by the forced step, and any other has moved by itself.
  · rename_i stuck
    simp only [Bool.and_eq_true, beq_iff_eq, Bool.not_eq_true'] at stuck
    simp only [Parser.note, Parser.advance]
    split
    · rename_i finished
      simp only [finished, List.length_nil]
      omega
    · rename_i token rest shape
      simp only [shape, List.length_cons] at balance
      simp only
      omega
  · rename_i moved
    simp only [Bool.and_eq_true, beq_iff_eq, Bool.not_eq_true', not_and, Parser.atEnd] at moved
    by_cases same : after.consumed = before.consumed
    · have finished : after.rest = [] := by simpa using moved same
      simp only [finished, List.length_nil]
      omega
    · have shorter := consumes.length_le
      omega

/-- No move is forced where tokens were consumed. -/
theorem ensureProgress_eq {before after : Parser} (consumes : before.Consumes after)
    (shorter : after.rest.length < before.rest.length) :
    after.ensureProgress before.consumed = after := by
  have balance := consumes.balance
  have moved : after.consumed ≠ before.consumed := by omega
  simp [Parser.ensureProgress, moved]

end Parser.Consumes

/-- Parsers only ever consume tokens. -/
def MoveLaw.consumption : MoveLaw where
  moves before _ after := before.Consumes after
  fails before after := before.Consumes after
  refl := .refl
  trans := .trans
  fails_of_moves := .trans
  refuse _ := ⟨List.suffix_refl _, rfl, rfl⟩
  advance := .advance
  note _ _ := ⟨List.suffix_refl _, rfl, rfl⟩
  symbol _ _ _ _ := ⟨List.suffix_refl _, rfl, rfl⟩
  host parser _ _ _ := .refl parser
  function _ _ := ⟨List.suffix_refl _, rfl, rfl⟩

theorem Parser.Consumes.skipSeparators (parser : Parser) :
    parser.Consumes parser.skipSeparators := by
  have unmoved : MoveLaw.consumption.moves parser [] parser := .refl parser
  exact MoveLaw.moves_skipSeparators unmoved

end EffectScript.Language
