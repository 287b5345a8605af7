import EffectScript.Proofs.Interning

/-!
# How high trees can grow

The height of a tree is the number of nodes on its longest path.  Levels of a run of binary
operators are charged only while the rest of the run is parsed, and its first operand is parsed
before: a run that uses up the budget can therefore stand on an operand that uses up almost all of
it again.  What the budget bounds is a sum, over its levels, of runs each as long as the level
allows, which grows with the square of the budget.
-/

namespace EffectScript

namespace Language

mutual

/-- The number of nodes on the longest path of a tree. -/
@[simp]
def Node.height : Node → Nat
  | .sectionOf _ body => heightAll body + 1
  | .assign _ target value => max target.height value.height + 1
  | .binary _ left right => max left.height right.height + 1
  | .unary _ operand => operand.height + 1
  | .call _ _ arguments => heightAll arguments + 1
  | .var _ => 1
  | .element _ index => index.height + 1
  | .number _ => 1
  | .string _ => 1
  | .ifThen condition thenBranch => max condition.height thenBranch.height + 1
  | .ifThenElse condition thenBranch elseBranch =>
    max condition.height (max thenBranch.height elseBranch.height) + 1
  | .whileLoop condition body => max condition.height body.height + 1
  | .block body => heightAll body + 1

/-- The number of nodes on the longest path of trees in sequence. -/
@[simp]
def heightAll : List Node → Nat
  | [] => 0
  | node :: rest => max node.height (heightAll rest)

end

/-! ### What a step yields -/

namespace Parse

variable {α β : Type}

/-- Wherever a step starts, its value satisfies `good` if it succeeds. -/
def Yields (good : α → Prop) (step : Parse α) : Prop :=
  ∀ parser, step.Ensures parser (fun value _ => good value) fun _ => True

variable {good better : α → Prop} {step : Parse α}

theorem Yields.imp (yields : step.Yields good) (weaken : ∀ value, good value → better value) :
    step.Yields better :=
  fun parser => (yields parser).imp (fun value _ => weaken value) fun _ => id

theorem yields_any (step : Parse α) : step.Yields fun _ => True := by
  intro parser
  rw [Ensures]
  split <;> trivial

theorem yields_pure {value : α} (holds : good value) : Yields good (pure value) :=
  fun _ => holds

theorem Yields.bind {between : α → Prop} {next : α → Parse β} {good : β → Prop}
    (yields : step.Yields between) (rest : ∀ value, between value → (next value).Yields good) :
    Yields good (step >>= next) := by
  intro parser
  rw [ensures_bind]
  exact (yields parser).imp (fun value after holds => rest value holds after) fun _ => id

/-- A step whose value does not matter, and then another. -/
theorem yields_bind {next : α → Parse β} {good : β → Prop}
    (rest : ∀ value, (next value).Yields good) : Yields good (step >>= next) :=
  (yields_any step).bind fun value _ => rest value

theorem yields_ite {condition : Prop} [Decidable condition] {yes no : Parse α}
    (whenTrue : yes.Yields good) (whenFalse : no.Yields good) :
    Yields good (if condition then yes else no) := by
  split
  · exact whenTrue
  · exact whenFalse

theorem yields_refuse : Yields good refuse :=
  fun _ => trivial

/-! ### Heights that a step yields -/

/-- The trees of a step are at most so high. -/
def Within (limit : Nat) (step : Parse Node) : Prop :=
  step.Yields fun node => node.height ≤ limit

variable {limit : Nat} {statement expression : Parse Node}

theorem yields_statementsWithin (within : statement.Within limit) (stops : Token → Bool)
    (allowance : List Token) :
    (statementsWithin statement stops allowance).Yields fun nodes => heightAll nodes ≤ limit := by
  induction allowance with
  | nil => exact yields_pure (Nat.zero_le limit)
  | cons _ allowance ih =>
    rw [statementsWithin]
    refine yields_bind fun _ => yields_bind fun _ => ?_
    refine yields_ite (yields_pure (Nat.zero_le limit)) (yields_bind fun _ => ?_)
    refine within.bind fun node low => yields_bind fun _ => ih.bind fun nodes lows => ?_
    exact yields_pure (Nat.max_le.2 ⟨low, lows⟩)

theorem yields_statements (within : statement.Within limit) (stops : Token → Bool) :
    (statements statement stops).Yields fun nodes => heightAll nodes ≤ limit :=
  yields_bind fun allowance => yields_statementsWithin within stops allowance

theorem yields_argumentsWithin (within : expression.Within limit) (allowance : List Token) :
    (argumentsWithin expression allowance).Yields fun nodes => heightAll nodes ≤ limit := by
  induction allowance with
  | nil => exact yields_pure (Nat.zero_le limit)
  | cons _ allowance ih =>
    rw [argumentsWithin]
    refine yields_bind fun _ => yields_ite (yields_pure (Nat.zero_le limit)) ?_
    refine yields_bind fun _ => within.bind fun node low => yields_bind fun _ => ?_
    refine yields_bind fun _ => ih.bind fun nodes lows => ?_
    exact yields_pure (Nat.max_le.2 ⟨low, lows⟩)

theorem yields_arguments (within : expression.Within limit) :
    (arguments expression).Yields fun nodes => heightAll nodes ≤ limit :=
  yields_bind fun allowance => yields_argumentsWithin within allowance

/-! ### Statements -/

theorem within_elsePart (within : statement.Within limit) {condition thenBranch : Node}
    (low : condition.height ≤ limit) (thenLow : thenBranch.height ≤ limit) :
    (elsePart statement condition thenBranch).Within (limit + 1) := by
  refine yields_bind fun _ => yields_bind fun _ => yields_ite ?_ ?_
  · refine yields_bind fun _ => within.bind fun elseBranch elseLow => yields_pure ?_
    simp only [Node.height]
    omega
  · refine yields_pure ?_
    simp only [Node.height]
    omega

theorem within_statementBody (statementLow : statement.Within limit)
    (expressionLow : expression.Within limit) :
    (statementBody statement expression).Within (limit + 1) := by
  refine yields_bind fun _ => yields_ite ?_ (yields_ite ?_ (yields_ite ?_ ?_))
  · refine yields_bind fun _ => yields_bind fun _ => expressionLow.bind fun condition low => ?_
    refine yields_bind fun _ => statementLow.bind fun thenBranch thenLow => ?_
    exact within_elsePart statementLow low thenLow
  · refine yields_bind fun _ => yields_bind fun _ => expressionLow.bind fun condition low => ?_
    refine yields_bind fun _ => statementLow.bind fun body bodyLow => yields_pure ?_
    simp only [Node.height]
    omega
  · refine yields_bind fun _ => (yields_statements statementLow _).bind fun body low => ?_
    refine yields_bind fun _ => yields_pure ?_
    simp only [Node.height]
    omega
  · exact expressionLow.imp fun node low => Nat.le_succ_of_le low

/-! ### Primaries -/

theorem within_bareName (name : String) : (bareName name).Within 1 := by
  rw [bareName]
  split
  · exact yields_pure (Nat.le_refl 1)
  · split
    · exact yields_pure (Nat.le_refl 1)
    · exact yields_bind fun symbol => yields_pure (Nat.le_refl 1)

theorem within_afterName (within : expression.Within limit) (name : String) :
    (afterName expression name).Within (limit + 1) := by
  refine yields_bind fun _ => yields_ite ?_ (yields_bind fun _ => yields_ite ?_ ?_)
  · refine (yields_arguments within).bind fun arguments low => yields_bind fun _ => ?_
    refine yields_bind fun _ => yields_pure ?_
    simp only [Node.height]
    omega
  · refine within.bind fun index low => yields_bind fun _ => yields_pure ?_
    simp only [Node.height]
    omega
  · refine (within_bareName name).imp fun node low => ?_
    omega

theorem within_parenthesized (within : statement.Within limit) :
    (parenthesized statement).Within (limit + 1) := by
  refine within.bind fun first low => yields_bind fun _ => yields_ite ?_ ?_
  · refine (yields_statements within _).bind fun more lows => yields_bind fun _ => yields_pure ?_
    simp only [Node.height, heightAll]
    omega
  · exact yields_bind fun _ => yields_pure (Nat.le_succ_of_le low)

theorem within_missingOperand (token : Token) : (missingOperand token).Within 1 :=
  yields_bind fun _ => yields_pure (Nat.le_refl 1)

theorem within_primary (statementLow : statement.Within limit)
    (expressionLow : expression.Within limit) :
    (primary statement expression).Within (limit + 1) := by
  have missing (token : Token) : (missingOperand token).Within (limit + 1) :=
    (within_missingOperand token).imp fun node low => by omega
  refine yields_bind fun token => ?_
  split
  · exact yields_bind fun _ => yields_pure (Nat.succ_le_succ (Nat.zero_le limit))
  · exact yields_bind fun _ => yields_pure (Nat.succ_le_succ (Nat.zero_le limit))
  · refine yields_ite (missing token) (yields_bind fun _ => ?_)
    exact within_afterName expressionLow token.text
  · refine yields_ite ?_ (missing token)
    exact statementLow.imp fun node low => Nat.le_succ_of_le low
  · refine yields_ite (yields_bind fun _ => ?_) (missing token)
    exact within_parenthesized statementLow
  · exact missing token

/-! ### Expressions -/

variable {unary deeper : Parse Node}

/-- A run makes a left operand at most so high, or higher by the levels of the run. -/
def RunsWithin (limit levels : Nat) (run : Node → Parse Node) : Prop :=
  ∀ left, (run left).Within (max left.height limit + levels)

theorem within_conditional {run : Node → Parse Node} {levels : Nat} (unaryLow : unary.Within limit)
    (runs : RunsWithin limit levels run) (expressionLow : expression.Within (limit + levels)) :
    (conditional unary run expression).Within (limit + levels + 1) := by
  refine unaryLow.bind fun first low => (runs first).bind fun condition conditionLow => ?_
  refine yields_bind fun _ => yields_ite ?_ (yields_pure ?_)
  · refine yields_bind fun _ => expressionLow.bind fun thenBranch thenLow => ?_
    refine yields_bind fun _ => yields_ite ?_ (yields_pure ?_)
    · refine expressionLow.bind fun elseBranch elseLow => yields_pure ?_
      simp only [Node.height]
      omega
    · simp only [Node.height]
      omega
  · omega

theorem within_expressionBody {run : Node → Parse Node} {levels : Nat}
    (unaryLow : unary.Within limit) (runs : RunsWithin limit levels run)
    (expressionLow : expression.Within (limit + levels)) :
    (expressionBody unary run expression).Within (limit + levels + 2) := by
  refine (within_conditional unaryLow runs expressionLow).bind fun target low => ?_
  refine yields_bind fun token => ?_
  split
  · refine yields_bind fun _ => expressionLow.bind fun value valueLow => yields_pure ?_
    simp only [Node.height]
    omega
  · exact yields_pure (Nat.le_succ_of_le low)

theorem within_unaryBody (deeperLow : deeper.Within limit) (statementLow : statement.Within limit)
    (expressionLow : expression.Within limit) :
    (unaryBody deeper statement expression).Within (limit + 1) := by
  refine yields_bind fun token => ?_
  split
  · exact deeperLow.bind fun operand low => yields_pure (Nat.succ_le_succ low)
  · exact within_primary statementLow expressionLow

end Parse

/-! ### The grammar at every budget -/

/-- Greatest height of an operand at a budget: a run at every level below, each as long as the level
allows, a conditional, an assignment and what encloses them. -/
def operandLimit : Nat → Nat
  | 0 => 1
  | budget + 1 => operandLimit budget + budget + 3

theorem two_mul_operandLimit (budget : Nat) :
    2 * operandLimit budget = budget * (budget + 5) + 2 := by
  induction budget with
  | zero => rfl
  | succ budget ih =>
    rw [operandLimit, Nat.mul_add, Nat.mul_add, ih]
    simp only [Nat.add_mul, Nat.mul_add]
    omega

namespace Grammar

/-- The trees of one level are as low as its budget promises. -/
structure Low (level : Grammar) (budget : Nat) : Prop where
  statement : level.statement.Within (operandLimit budget - 1)
  expression : level.expression.Within (operandLimit budget - 1)
  unary : level.unary.Within (operandLimit budget)
  run : Parse.RunsWithin (operandLimit budget) budget level.run

theorem low_exhausted : exhausted.Low 0 where
  statement := Parse.yields_refuse
  expression := Parse.yields_refuse
  unary := Parse.within_unaryBody Parse.yields_refuse Parse.yields_refuse Parse.yields_refuse
  run left := by
    refine Parse.yields_bind fun token => ?_
    split
    · exact Parse.yields_refuse
    · exact Parse.yields_pure (Nat.le_max_left _ _)

theorem Low.deepen {below : Grammar} {budget : Nat} (low : below.Low budget) :
    below.deepen.Low (budget + 1) := by
  have statement : below.deepen.statement.Within (operandLimit budget + budget + 2) :=
    (Parse.within_statementBody low.statement low.expression).imp fun node lower => by omega
  have expression : below.deepen.expression.Within (operandLimit budget + budget + 2) :=
    Parse.within_expressionBody low.unary low.run
      (low.expression.imp fun node lower => by omega)
  refine ⟨statement, expression, Parse.within_unaryBody ?_ statement expression, fun left => ?_⟩
  · exact Parse.yields_bind fun _ => low.unary.imp fun node lower => by omega
  · refine Parse.yields_bind fun token => ?_
    split
    · rename_i op _
      refine Parse.yields_bind fun _ => low.unary.bind fun right lower => ?_
      refine (low.run (.binary op left right)).imp fun node bounded => ?_
      simp only [Node.height, operandLimit] at bounded ⊢
      omega
    · exact Parse.yields_pure (by omega)

end Grammar

theorem low_grammar (budget : Nat) : (grammar budget).Low budget := by
  induction budget with
  | zero => exact Grammar.low_exhausted
  | succ budget ih => exact ih.deepen

/-! ### Programs -/

namespace Parse

variable {limit : Nat} {statement : Parse Node}

theorem within_sectionItem (within : statement.Within limit) :
    (sectionItem statement).Within (limit + 1) := by
  refine yields_bind fun token => yields_bind fun _ => ?_
  refine (yields_statements within _).bind fun body low => yields_pure ?_
  exact Nat.succ_le_succ low

theorem yields_itemsWithin (within : statement.Within limit) (allowance : List Token) :
    (itemsWithin statement allowance).Yields fun items => heightAll items ≤ limit + 1 := by
  induction allowance with
  | nil => exact yields_pure (Nat.zero_le _)
  | cons _ allowance ih =>
    rw [itemsWithin]
    refine yields_bind fun _ => yields_bind fun _ => ?_
    refine yields_ite (yields_pure (Nat.zero_le _)) (yields_bind fun token => yields_ite ?_ ?_)
    · refine (within_sectionItem within).bind fun item low => ih.bind fun items lows => ?_
      exact yields_pure (Nat.max_le.2 ⟨low, lows⟩)
    · refine yields_bind fun _ => within.bind fun item low => yields_bind fun _ => ?_
      refine ih.bind fun items lows => yields_pure ?_
      exact Nat.max_le.2 ⟨Nat.le_succ_of_le low, lows⟩

theorem ensures_program_low (parser : Parser) :
    program.Ensures parser
      (fun program _ => heightAll program.items ≤ operandLimit (nestingLimit - parser.depth))
      fun _ => True := by
  generalize spare : nestingLimit - parser.depth = budget
  have positive : 1 ≤ operandLimit budget := by
    cases budget with
    | zero => exact Nat.le_refl 1
    | succ budget =>
      rw [operandLimit]
      omega
  rw [ensures_program, spare]
  refine (yields_itemsWithin (low_grammar budget).statement _ parser).imp
    (fun items _ lows => ?_) fun _ => id
  dsimp only
  omega

end Parse

theorem heightAll_le_iff {nodes : List Node} {limit : Nat} :
    heightAll nodes ≤ limit ↔ ∀ node ∈ nodes, node.height ≤ limit := by
  induction nodes with
  | nil => simp
  | cons node rest ih => rw [heightAll, Nat.max_le, ih, List.forall_mem_cons]

end Language

namespace Script

open EffectScript.Language

/-- Whatever source is accepted, twice the height of its trees is at most the square of the budget
and five times the budget more. -/
theorem height_compile {source : String} {script : Script}
    (compiled : (compile source).value = .ok script) :
    ∀ item ∈ script.program.items, 2 * item.height ≤ nestingLimit * (nestingLimit + 5) + 2 := by
  obtain ⟨⟨body, parsed⟩, _⟩ := compile_ok compiled
  have bounded := (Parse.ensures_program_low (Parser.ofSource body)).run_ok parsed
  intro item member
  rw [← two_mul_operandLimit]
  exact Nat.mul_le_mul_left 2 (heightAll_le_iff.1 bounded item member)

theorem height_compile_increment :
    ∃ script, (compile "@init x = x + 1").value = .ok script ∧
      ∀ item ∈ script.program.items, 2 * item.height ≤ nestingLimit * (nestingLimit + 5) + 2 := by
  have accepted : ((compile "@init x = x + 1").value.toOption).isSome = true := by decide +kernel
  cases compiled : (compile "@init x = x + 1").value with
  | error cause =>
    rw [compiled] at accepted
    contradiction
  | ok script => exact ⟨script, rfl, height_compile compiled⟩

end Script

end EffectScript
