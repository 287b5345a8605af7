import EffectScript.Machine.Eval

/-!
# The cap on loops

`Evaluates` gives the meaning of trees by rules, for loops with any cap or with none, and keeps a
log of what each execution of a loop did.  Without a cap these are the usual rules, and a loop that
never ends has no derivation.  With the cap `loopLimit` they describe exactly what `eval` computes.

As long as every loop of an uncapped derivation stays below the cap, the capped rules allow the same
derivation; and in a capped derivation every loop keeps to the cap, whatever it contains.
-/

namespace EffectScript.Machine

open EffectScript.Language

/-! ### What a loop did -/

/-- What one execution of a loop did. -/
structure LoopRun where
  /-- How often the condition was evaluated. -/
  tests : Nat
  /-- Values of the body, round by round. -/
  values : List Float
  /-- Value of the loop. -/
  result : Float

namespace LoopRun

/-- A loop that has just been entered. -/
def start : LoopRun := ⟨0, [], 0.0⟩

/-- The condition was evaluated and found not to hold. -/
def withTest (run : LoopRun) : LoopRun := { run with tests := run.tests + 1 }

/-- The condition was evaluated and found to hold, and the body gave a value. -/
def withRound (run : LoopRun) (value : Float) : LoopRun :=
  ⟨run.tests + 1, run.values ++ [value], value⟩

end LoopRun

/-- Whether a loop with a cap may go on after some rounds. -/
def Allows (cap : Option Nat) (rounds : Nat) : Prop := ∀ limit ∈ cap, rounds < limit

/-! ### Evaluation by rules -/

/-- What is to be evaluated. -/
inductive Task where
  | tree (node : Node)
  /-- Statements; the value is `last` if there is none. -/
  | sequence (last : Float) (nodes : List Node)
  /-- A call of which some arguments have their values. -/
  | call (function : Nat) (given : List Float) (rest : List Node)
  /-- A loop that has already run for a while. -/
  | loop (run : LoopRun) (condition body : Node)

/-- The value of a call; an unknown function gives zero. -/
def Bindings.callValue (bindings : Bindings) (function : Nat) (values : List Float) : Float :=
  match bindings.function? function with
  | some function => function.apply (values.take argumentLimit)
  | none => 0.0

/-- A task evaluates to a value and leaves a context, and these loops were executed for it. -/
inductive Evaluates (cap : Option Nat) (bindings : Bindings) :
    Task → Context → Float → Context → List LoopRun → Prop
  | number (value : Float) (context : Context) :
    Evaluates cap bindings (.tree (.number value)) context value context []
  | string (text : String) (context : Context) :
    Evaluates cap bindings (.tree (.string text)) context 0.0 context []
  | var (var : Var) (context : Context) :
    Evaluates cap bindings (.tree (.var var)) context (context.readVar bindings var) context []
  | assign {op : AssignOp} {var : Var} {value : Node} {before after : Context} {stored : Float}
      {log : List LoopRun} :
    Evaluates cap bindings (.tree value) before stored after log →
    Evaluates cap bindings (.tree (.assign op (.var var) value)) before stored
      (after.assignVar bindings var op stored) log
  /-- What is no variable cannot be stored to, and is not evaluated either. -/
  | assignElsewhere {op : AssignOp} {target value : Node} {before after : Context}
      {stored : Float} {log : List LoopRun} :
    (∀ var, target ≠ .var var) →
    Evaluates cap bindings (.tree value) before stored after log →
    Evaluates cap bindings (.tree (.assign op target value)) before 0.0 after log
  | binary {op : BinaryOp} {left right : Node} {before middle after : Context}
      {leftValue rightValue : Float} {log more : List LoopRun} :
    Evaluates cap bindings (.tree left) before leftValue middle log →
    Evaluates cap bindings (.tree right) middle rightValue after more →
    Evaluates cap bindings (.tree (.binary op left right)) before
      (op.apply leftValue rightValue) after (log ++ more)
  | unary {op : UnaryOp} {operand : Node} {before after : Context} {value : Float}
      {log : List LoopRun} :
    Evaluates cap bindings (.tree operand) before value after log →
    Evaluates cap bindings (.tree (.unary op operand)) before (op.apply value) after log
  | call {name : String} {function : Nat} {arguments : List Node} {before after : Context}
      {value : Float} {log : List LoopRun} :
    Evaluates cap bindings (.call function [] arguments) before value after log →
    Evaluates cap bindings (.tree (.call name function arguments)) before value after log
  | argument {function : Nat} {given : List Float} {node : Node} {rest : List Node}
      {before middle after : Context} {argument value : Float} {log more : List LoopRun} :
    Evaluates cap bindings (.tree node) before argument middle log →
    Evaluates cap bindings (.call function (given ++ [argument]) rest) middle value after more →
    Evaluates cap bindings (.call function given (node :: rest)) before value after (log ++ more)
  | applied (function : Nat) (given : List Float) (context : Context) :
    Evaluates cap bindings (.call function given []) context
      (bindings.callValue function given) context []
  | element {name : String} {index : Node} {before after : Context} {place : Float}
      {log : List LoopRun} :
    Evaluates cap bindings (.tree index) before place after log →
    Evaluates cap bindings (.tree (.element name index)) before (after.readElement name place)
      after log
  | ifThen {condition thenBranch : Node} {before middle after : Context} {test value : Float}
      {log more : List LoopRun} :
    Evaluates cap bindings (.tree condition) before test middle log → isTrue test = true →
    Evaluates cap bindings (.tree thenBranch) middle value after more →
    Evaluates cap bindings (.tree (.ifThen condition thenBranch)) before value after (log ++ more)
  | ifThenNot {condition thenBranch : Node} {before after : Context} {test : Float}
      {log : List LoopRun} :
    Evaluates cap bindings (.tree condition) before test after log → isTrue test = false →
    Evaluates cap bindings (.tree (.ifThen condition thenBranch)) before 0.0 after log
  | ifThenElse {condition thenBranch elseBranch : Node} {before middle after : Context}
      {test value : Float} {log more : List LoopRun} :
    Evaluates cap bindings (.tree condition) before test middle log →
    Evaluates cap bindings (.tree (if isTrue test then thenBranch else elseBranch)) middle value
      after more →
    Evaluates cap bindings (.tree (.ifThenElse condition thenBranch elseBranch)) before value
      after (log ++ more)
  | whileLoop {condition body : Node} {before after : Context} {value : Float}
      {log : List LoopRun} :
    Evaluates cap bindings (.loop .start condition body) before value after log →
    Evaluates cap bindings (.tree (.whileLoop condition body)) before value after log
  | block {body : List Node} {before after : Context} {value : Float} {log : List LoopRun} :
    Evaluates cap bindings (.sequence 0.0 body) before value after log →
    Evaluates cap bindings (.tree (.block body)) before value after log
  | sectionOf {name : String} {body : List Node} {before after : Context} {value : Float}
      {log : List LoopRun} :
    Evaluates cap bindings (.sequence 0.0 body) before value after log →
    Evaluates cap bindings (.tree (.sectionOf name body)) before value after log
  | nothing (last : Float) (context : Context) :
    Evaluates cap bindings (.sequence last []) context last context []
  | statement {last value result : Float} {node : Node} {rest : List Node}
      {before middle after : Context} {log more : List LoopRun} :
    Evaluates cap bindings (.tree node) before value middle log →
    Evaluates cap bindings (.sequence value rest) middle result after more →
    Evaluates cap bindings (.sequence last (node :: rest)) before result after (log ++ more)
  /-- At the cap a loop ends without testing its condition. -/
  | capped {run : LoopRun} {condition body : Node} (context : Context) :
    ¬Allows cap run.values.length →
    Evaluates cap bindings (.loop run condition body) context run.result context [run]
  | stopped {run : LoopRun} {condition body : Node} {before after : Context} {test : Float}
      {log : List LoopRun} :
    Allows cap run.values.length →
    Evaluates cap bindings (.tree condition) before test after log → isTrue test = false →
    Evaluates cap bindings (.loop run condition body) before run.result after
      (log ++ [run.withTest])
  | round {run : LoopRun} {condition body : Node} {before middle later after : Context}
      {test value result : Float} {log bodyLog more : List LoopRun} :
    Allows cap run.values.length →
    Evaluates cap bindings (.tree condition) before test middle log → isTrue test = true →
    Evaluates cap bindings (.tree body) middle value later bodyLog →
    Evaluates cap bindings (.loop (run.withRound value) condition body) later result after more →
    Evaluates cap bindings (.loop run condition body) before result after
      (log ++ bodyLog ++ more)

variable {bindings : Bindings}

/-! ### The rules and the evaluator -/

/-- Evaluate a task. -/
def Task.eval (bindings : Bindings) : Task → Eval Float
  | .tree node => Machine.eval bindings node
  | .sequence last nodes => evalAll bindings last nodes
  | .call function given rest => do
    let values ← evalArguments bindings rest
    return bindings.callValue function (given ++ values)
  | .loop run condition body =>
    Eval.loop (Machine.eval bindings condition) (Machine.eval bindings body)
      (loopLimit - run.values.length) run.result

/-- Go on with the value and the context that a computation leaves. -/
theorem Eval.bind_of_eq {α β : Type} {computation : Eval α} {before middle : Context} {value : α}
    (first : computation before = (value, middle)) (next : α → Eval β) :
    (computation >>= next) before = next value middle := by
  change next (computation before).1 (computation before).2 = next value middle
  rw [first]

theorem eval_call (name : String) (function : Nat) (arguments : List Node) :
    eval bindings (.call name function arguments) =
      (Task.call function [] arguments).eval bindings := by
  simp only [eval, Task.eval, List.nil_append, Bindings.callValue]
  congr
  funext values
  cases bindings.function? function <;> rfl

theorem eval_argument {function : Nat} {given : List Float} {node : Node} {rest : List Node}
    {before middle : Context} {argument : Float}
    (first : eval bindings node before = (argument, middle)) :
    (Task.call function given (node :: rest)).eval bindings before =
      (Task.call function (given ++ [argument]) rest).eval bindings middle := by
  simp only [Task.eval, evalArguments, bind_assoc, pure_bind]
  rw [Eval.bind_of_eq first]
  simp

theorem remaining_rounds {run : LoopRun} (allowed : Allows (some loopLimit) run.values.length)
    (value : Float) :
    loopLimit - run.values.length = loopLimit - (run.withRound value).values.length + 1 := by
  have below : run.values.length < loopLimit := allowed loopLimit rfl
  simp only [LoopRun.withRound, List.length_append, List.length_singleton]
  omega

theorem eval_round {run : LoopRun} {condition body : Node} {before middle later : Context}
    {test value : Float} (allowed : Allows (some loopLimit) run.values.length)
    (tested : eval bindings condition before = (test, middle)) (holds : isTrue test = true)
    (ran : eval bindings body middle = (value, later)) :
    (Task.loop run condition body).eval bindings before =
      (Task.loop (run.withRound value) condition body).eval bindings later := by
  simp only [Task.eval]
  rw [remaining_rounds allowed value, Eval.loop, Eval.bind_of_eq tested, if_pos holds,
    Eval.bind_of_eq ran]
  rfl

theorem eval_stopped {run : LoopRun} {condition body : Node} {before after : Context}
    {test : Float} (allowed : Allows (some loopLimit) run.values.length)
    (tested : eval bindings condition before = (test, after)) (fails : isTrue test = false) :
    (Task.loop run condition body).eval bindings before = (run.result, after) := by
  simp only [Task.eval]
  rw [remaining_rounds allowed 0.0, Eval.loop, Eval.bind_of_eq tested, fails]
  rfl

theorem eval_capped {run : LoopRun} (condition body : Node) (context : Context)
    (spent : ¬Allows (some loopLimit) run.values.length) :
    (Task.loop run condition body).eval bindings context = (run.result, context) := by
  have none : loopLimit - run.values.length = 0 := by
    simp only [Allows, Option.mem_some, forall_eq'] at spent
    omega
  simp only [Task.eval, none]
  rfl

/-- What the capped rules derive is what the evaluator computes. -/
theorem Evaluates.eval_eq {task : Task} {before after : Context} {value : Float}
    {log : List LoopRun}
    (evaluates : Evaluates (some loopLimit) bindings task before value after log) :
    task.eval bindings before = (value, after) := by
  induction evaluates with
  | number value context => rfl
  | string text context => rfl
  | var var context => rfl
  | assign _ ih =>
    simp only [Task.eval, eval] at ih ⊢
    rw [Eval.bind_of_eq ih]
    rfl
  | @assignElsewhere op target _ _ _ _ _ elsewhere _ ih =>
    simp only [Task.eval, eval] at ih ⊢
    rw [Eval.bind_of_eq ih]
    cases target with
    | var var => exact absurd rfl (elsewhere var)
    | _ => rfl
  | binary _ _ ihLeft ihRight =>
    simp only [Task.eval, eval] at ihLeft ihRight ⊢
    rw [Eval.bind_of_eq ihLeft, Eval.bind_of_eq ihRight]
    rfl
  | unary _ ih =>
    simp only [Task.eval, eval] at ih ⊢
    rw [Eval.bind_of_eq ih]
    rfl
  | @call name function arguments before _ _ _ _ ih =>
    exact (congrFun (eval_call name function arguments) before).trans ih
  | argument _ _ ihArgument ihRest => exact (eval_argument ihArgument).trans ihRest
  | applied function given context =>
    change (bindings.callValue function (given ++ []), context) = _
    rw [List.append_nil]
  | element _ ih =>
    simp only [Task.eval, eval] at ih ⊢
    rw [Eval.bind_of_eq ih]
    rfl
  | ifThen _ holds _ ihTest ihBranch =>
    simp only [Task.eval, eval] at ihTest ihBranch ⊢
    rw [Eval.bind_of_eq ihTest, if_pos holds, ihBranch]
  | ifThenNot _ fails ihTest =>
    simp only [Task.eval, eval] at ihTest ⊢
    rw [Eval.bind_of_eq ihTest, fails]
    rfl
  | ifThenElse _ _ ihTest ihBranch =>
    simp only [Task.eval, eval] at ihTest ihBranch ⊢
    rw [Eval.bind_of_eq ihTest, ← ihBranch]
    split <;> rfl
  | whileLoop _ ih =>
    simp only [Task.eval, eval] at ih ⊢
    exact ih
  | block _ ih => simpa only [Task.eval, eval] using ih
  | sectionOf _ ih => simpa only [Task.eval, eval] using ih
  | nothing last context => rfl
  | statement _ _ ihNode ihRest =>
    simp only [Task.eval, evalAll] at ihNode ihRest ⊢
    rw [Eval.bind_of_eq ihNode, ihRest]
  | capped context spent => exact eval_capped _ _ context spent
  | stopped allowed _ fails ih => exact eval_stopped allowed ih fails
  | round allowed _ holds _ _ ihTest ihBody ihRest =>
    exact (eval_round allowed ihTest holds ihBody).trans ihRest

/-! ### Every task has a derivation -/

/-- From every context the capped rules derive an outcome of the task. -/
def Task.Ends (bindings : Bindings) (task : Task) : Prop :=
  ∀ before, ∃ value after log, Evaluates (some loopLimit) bindings task before value after log

/-- A loop ends if its condition and its body do; the induction is on the rounds left. -/
theorem ends_loop {condition body : Node} (endsCondition : (Task.tree condition).Ends bindings)
    (endsBody : (Task.tree body).Ends bindings) (run : LoopRun) :
    (Task.loop run condition body).Ends bindings := by
  intro before
  induction left : loopLimit - run.values.length generalizing run before with
  | zero =>
    have spent : ¬Allows (some loopLimit) run.values.length := by
      intro allowed
      have below : run.values.length < loopLimit := allowed loopLimit rfl
      omega
    exact ⟨run.result, before, [run], .capped before spent⟩
  | succ left ih =>
    have allowed : Allows (some loopLimit) run.values.length := by
      intro limit same
      obtain rfl := Option.some.inj same
      omega
    obtain ⟨test, middle, log, tested⟩ := endsCondition before
    cases holds : isTrue test with
    | false => exact ⟨run.result, middle, _, .stopped allowed tested holds⟩
    | true =>
      obtain ⟨value, later, bodyLog, ran⟩ := endsBody middle
      have fewer := remaining_rounds allowed value
      obtain ⟨result, after, more, rest⟩ := ih (run.withRound value) later (by omega)
      exact ⟨result, after, _, .round allowed tested holds ran rest⟩

mutual

theorem ends_tree (node : Node) : (Task.tree node).Ends bindings := by
  intro before
  cases node with
  | number value => exact ⟨_, _, _, .number value before⟩
  | string text => exact ⟨_, _, _, .string text before⟩
  | var var => exact ⟨_, _, _, .var var before⟩
  | assign op target value =>
    obtain ⟨stored, after, log, ran⟩ := ends_tree value before
    cases target with
    | var var => exact ⟨_, _, _, .assign ran⟩
    | _ => exact ⟨_, _, _, .assignElsewhere (by simp) ran⟩
  | binary op left right =>
    obtain ⟨leftValue, middle, log, ranLeft⟩ := ends_tree left before
    obtain ⟨rightValue, after, more, ranRight⟩ := ends_tree right middle
    exact ⟨_, _, _, .binary ranLeft ranRight⟩
  | unary op operand =>
    obtain ⟨value, after, log, ran⟩ := ends_tree operand before
    exact ⟨_, _, _, .unary ran⟩
  | call name function arguments =>
    obtain ⟨value, after, log, ran⟩ := ends_call function [] arguments before
    exact ⟨_, _, _, .call ran⟩
  | element name index =>
    obtain ⟨place, after, log, ran⟩ := ends_tree index before
    exact ⟨_, _, _, .element ran⟩
  | ifThen condition thenBranch =>
    obtain ⟨test, middle, log, tested⟩ := ends_tree condition before
    cases holds : isTrue test with
    | false => exact ⟨_, _, _, .ifThenNot tested holds⟩
    | true =>
      obtain ⟨value, after, more, ran⟩ := ends_tree thenBranch middle
      exact ⟨_, _, _, .ifThen tested holds ran⟩
  | ifThenElse condition thenBranch elseBranch =>
    obtain ⟨test, middle, log, tested⟩ := ends_tree condition before
    have endsBranch :
        (Task.tree (if isTrue test then thenBranch else elseBranch)).Ends bindings := by
      split
      · exact ends_tree thenBranch
      · exact ends_tree elseBranch
    obtain ⟨value, after, more, ran⟩ := endsBranch middle
    exact ⟨_, _, _, .ifThenElse tested ran⟩
  | whileLoop condition body =>
    obtain ⟨value, after, log, ran⟩ :=
      ends_loop (ends_tree condition) (ends_tree body) .start before
    exact ⟨_, _, _, .whileLoop ran⟩
  | block body =>
    obtain ⟨value, after, log, ran⟩ := ends_sequence 0.0 body before
    exact ⟨_, _, _, .block ran⟩
  | sectionOf name body =>
    obtain ⟨value, after, log, ran⟩ := ends_sequence 0.0 body before
    exact ⟨_, _, _, .sectionOf ran⟩

theorem ends_sequence (last : Float) (nodes : List Node) :
    (Task.sequence last nodes).Ends bindings := by
  intro before
  cases nodes with
  | nil => exact ⟨_, _, _, .nothing last before⟩
  | cons node rest =>
    obtain ⟨value, middle, log, ran⟩ := ends_tree node before
    obtain ⟨result, after, more, ranRest⟩ := ends_sequence value rest middle
    exact ⟨_, _, _, .statement ran ranRest⟩

theorem ends_call (function : Nat) (given : List Float) (rest : List Node) :
    (Task.call function given rest).Ends bindings := by
  intro before
  cases rest with
  | nil => exact ⟨_, _, _, .applied function given before⟩
  | cons node rest =>
    obtain ⟨argument, middle, log, ran⟩ := ends_tree node before
    obtain ⟨value, after, more, ranRest⟩ := ends_call function (given ++ [argument]) rest middle
    exact ⟨_, _, _, .argument ran ranRest⟩

end

/-! ### Loops below the cap -/

/-- The record of a loop that has run for a while counts at least the rounds so far. -/
theorem Evaluates.exists_mem_log {cap : Option Nat} {task : Task} {before after : Context}
    {value : Float} {log : List LoopRun}
    (evaluates : Evaluates cap bindings task before value after log) {run : LoopRun}
    {condition body : Node} (shape : task = .loop run condition body) :
    ∃ whole ∈ log, run.values.length ≤ whole.values.length := by
  induction evaluates generalizing run condition body with
  | @capped found =>
    obtain ⟨rfl, _, _⟩ := Task.loop.inj shape
    exact ⟨found, List.mem_singleton_self found, Nat.le_refl _⟩
  | @stopped found =>
    obtain ⟨rfl, _, _⟩ := Task.loop.inj shape
    exact ⟨found.withTest, by simp, Nat.le_refl _⟩
  | round _ _ _ _ _ _ _ ih =>
    obtain ⟨rfl, _, _⟩ := Task.loop.inj shape
    obtain ⟨whole, member, longer⟩ := ih rfl
    refine ⟨whole, by simp [member], ?_⟩
    simp only [LoopRun.withRound, List.length_append, List.length_singleton] at longer
    omega
  | _ => cases shape

/-- A derivation without a cap is one with a cap that none of its loops reaches. -/
theorem Evaluates.withCap {task : Task} {before after : Context} {value : Float}
    {log : List LoopRun} (evaluates : Evaluates none bindings task before value after log)
    {limit : Nat} (below : ∀ run ∈ log, run.values.length < limit) :
    Evaluates (some limit) bindings task before value after log := by
  induction evaluates with
  | number value context => exact .number value context
  | string text context => exact .string text context
  | var var context => exact .var var context
  | assign _ ih => exact .assign (ih below)
  | assignElsewhere elsewhere _ ih => exact .assignElsewhere elsewhere (ih below)
  | binary _ _ ihLeft ihRight =>
    rw [List.forall_mem_append] at below
    exact .binary (ihLeft below.1) (ihRight below.2)
  | unary _ ih => exact .unary (ih below)
  | call _ ih => exact .call (ih below)
  | argument _ _ ihArgument ihRest =>
    rw [List.forall_mem_append] at below
    exact .argument (ihArgument below.1) (ihRest below.2)
  | applied function given context => exact .applied function given context
  | element _ ih => exact .element (ih below)
  | ifThen _ holds _ ihTest ihBranch =>
    rw [List.forall_mem_append] at below
    exact .ifThen (ihTest below.1) holds (ihBranch below.2)
  | ifThenNot _ fails ihTest => exact .ifThenNot (ihTest below) fails
  | ifThenElse _ _ ihTest ihBranch =>
    rw [List.forall_mem_append] at below
    exact .ifThenElse (ihTest below.1) (ihBranch below.2)
  | whileLoop _ ih => exact .whileLoop (ih below)
  | block _ ih => exact .block (ih below)
  | sectionOf _ ih => exact .sectionOf (ih below)
  | nothing last context => exact .nothing last context
  | statement _ _ ihNode ihRest =>
    rw [List.forall_mem_append] at below
    exact .statement (ihNode below.1) (ihRest below.2)
  | capped context spent => exact absurd (by simp [Allows]) spent
  | @stopped run _ _ _ _ _ _ _ _ fails ih =>
    rw [List.forall_mem_append] at below
    have fewer : run.values.length < limit := below.2 run.withTest (List.mem_singleton_self _)
    exact .stopped (by simpa [Allows] using fewer) (ih below.1) fails
  | @round run _ _ _ _ _ _ _ value _ _ _ _ _ _ holds _ rest ihTest ihBody ihRest =>
    -- The round is within the cap, as the record of the whole loop counts it and is below the cap.
    obtain ⟨whole, member, longer⟩ := rest.exists_mem_log rfl
    have fewer := below whole (by simp [member])
    simp only [LoopRun.withRound, List.length_append, List.length_singleton] at longer
    rw [List.forall_mem_append, List.forall_mem_append] at below
    refine .round ?_ (ihTest below.1.1) holds (ihBody below.1.2) (ihRest below.2)
    simp only [Allows, Option.mem_some, forall_eq']
    omega

/-! ### Loops at the cap -/

/-- The loop has kept to a cap, and holds the value of its last round. -/
structure LoopRun.KeepsTo (limit : Nat) (run : LoopRun) : Prop where
  rounds_le : run.values.length ≤ limit
  tests_le : run.tests ≤ limit
  result_eq : run.result = run.values.getLastD 0.0

/-- A loop that has run for a while has tested its condition once for each round. -/
structure LoopRun.InProgress (limit : Nat) (run : LoopRun) : Prop where
  rounds_le : run.values.length ≤ limit
  tests_eq : run.tests = run.values.length
  result_eq : run.result = run.values.getLastD 0.0

theorem LoopRun.inProgress_start (limit : Nat) : LoopRun.start.InProgress limit :=
  ⟨Nat.zero_le limit, rfl, rfl⟩

theorem LoopRun.InProgress.withRound {limit : Nat} {run : LoopRun} (progress : run.InProgress limit)
    (allowed : Allows (some limit) run.values.length) (value : Float) :
    (run.withRound value).InProgress limit := by
  have below : run.values.length < limit := allowed limit rfl
  constructor
  · simp only [LoopRun.withRound, List.length_append, List.length_singleton]
    omega
  · simp [LoopRun.withRound, progress.tests_eq]
  · simp [LoopRun.withRound]

/-- In a derivation with a cap every loop keeps to it. -/
theorem Evaluates.keepsTo {limit : Nat} {task : Task} {before after : Context} {value : Float}
    {log : List LoopRun} (evaluates : Evaluates (some limit) bindings task before value after log)
    (progress : ∀ run condition body, task = .loop run condition body → run.InProgress limit) :
    ∀ run ∈ log, run.KeepsTo limit := by
  induction evaluates with
  | number | string | var | applied | nothing => simp
  | assign _ ih => exact ih (by simp)
  | assignElsewhere _ _ ih => exact ih (by simp)
  | binary _ _ ihLeft ihRight =>
    rw [List.forall_mem_append]
    exact ⟨ihLeft (by simp), ihRight (by simp)⟩
  | unary _ ih => exact ih (by simp)
  | call _ ih => exact ih (by simp)
  | argument _ _ ihArgument ihRest =>
    rw [List.forall_mem_append]
    exact ⟨ihArgument (by simp), ihRest (by simp)⟩
  | element _ ih => exact ih (by simp)
  | ifThen _ _ _ ihTest ihBranch =>
    rw [List.forall_mem_append]
    exact ⟨ihTest (by simp), ihBranch (by simp)⟩
  | ifThenNot _ _ ihTest => exact ihTest (by simp)
  | ifThenElse _ _ ihTest ihBranch =>
    rw [List.forall_mem_append]
    exact ⟨ihTest (by simp), ihBranch (by simp)⟩
  | whileLoop _ ih =>
    refine ih fun run condition body shape => ?_
    obtain ⟨rfl, _⟩ := Task.loop.inj shape
    exact LoopRun.inProgress_start limit
  | block _ ih => exact ih (by simp)
  | sectionOf _ ih => exact ih (by simp)
  | statement _ _ ihNode ihRest =>
    rw [List.forall_mem_append]
    exact ⟨ihNode (by simp), ihRest (by simp)⟩
  | @capped run condition body context spent =>
    have reached := progress run condition body rfl
    rw [List.forall_mem_singleton]
    exact ⟨reached.rounds_le, reached.tests_eq ▸ reached.rounds_le, reached.result_eq⟩
  | @stopped run condition body _ _ _ _ allowed _ fails ih =>
    have reached := progress run condition body rfl
    have below : run.values.length < limit := allowed limit rfl
    rw [List.forall_mem_append, List.forall_mem_singleton]
    refine ⟨ih (by simp), reached.rounds_le, ?_, reached.result_eq⟩
    simp only [LoopRun.withTest, reached.tests_eq]
    omega
  | @round run condition body _ _ _ _ _ value _ _ _ _ allowed _ _ _ _ ihTest ihBody ihRest =>
    have reached := progress run condition body rfl
    rw [List.forall_mem_append, List.forall_mem_append]
    refine ⟨⟨ihTest (by simp), ihBody (by simp)⟩, ihRest fun next _ _ shape => ?_⟩
    obtain ⟨rfl, _⟩ := Task.loop.inj shape
    exact reached.withRound allowed value

/-! ### Evaluation with and without the cap -/

/-- If a tree evaluates without a cap, and each loop that is executed for it runs its body less
often than the cap, then the evaluator gives the same value and leaves the same context.  Whatever
the evaluator does is derived with the cap, and in all such derivations each execution of a loop
runs its body and tests its condition at most as often as the cap, and has the value of its last
round. -/
theorem eval_with_and_without_cap (bindings : Bindings) (node : Node) (before : Context) :
    (∀ value after log, Evaluates none bindings (.tree node) before value after log →
      (∀ run ∈ log, run.values.length < loopLimit) →
      eval bindings node before = (value, after)) ∧
    (∃ value after log,
      Evaluates (some loopLimit) bindings (.tree node) before value after log) ∧
    ∀ value after log, Evaluates (some loopLimit) bindings (.tree node) before value after log →
      eval bindings node before = (value, after) ∧
      ∀ run ∈ log, run.values.length ≤ loopLimit ∧ run.tests ≤ loopLimit ∧
        run.result = run.values.getLastD 0.0 := by
  refine ⟨fun value after log evaluates below => ?_, ends_tree node before,
    fun value after log evaluates => ⟨evaluates.eval_eq, fun run member => ?_⟩⟩
  · exact (evaluates.withCap below).eval_eq
  · have keeps := evaluates.keepsTo (by simp) run member
    exact ⟨keeps.rounds_le, keeps.tests_le, keeps.result_eq⟩

/-- A loop that counts two rounds, and in its second round another loop that counts one. -/
def countTwice : Node :=
  .whileLoop (.binary .lt (.var (.host .spl0)) (.number 2.0))
    (.block [.assign .add (.var (.host .spl0)) (.number 1.0),
      .whileLoop
        (.binary .lt (.var (.host .spl1)) (.binary .sub (.var (.host .spl0)) (.number 1.0)))
        (.assign .add (.var (.host .spl1)) (.number 1.0))])

theorem eval_with_and_without_cap_countTwice :
    ∃ value after log,
      Evaluates none ⟨#[], #[]⟩ (.tree countTwice) .fresh value after log ∧
      log.map (fun run => (run.tests, run.values.length)) = [(1, 0), (2, 1), (3, 2)] ∧
      (∀ run ∈ log, run.values.length < loopLimit) ∧
      eval ⟨#[], #[]⟩ countTwice .fresh = (value, after) ∧ after.spl0 = 2.0 ∧ after.spl1 = 1.0 := by
  have uncapped (rounds : Nat) : Allows none rounds := by simp [Allows]
  have outerTest (context : Context) : Evaluates none ⟨#[], #[]⟩
      (.tree (.binary .lt (.var (.host .spl0)) (.number 2.0))) context
      (BinaryOp.apply .lt context.spl0 2.0) context [] :=
    .binary (.var _ _) (.number _ _)
  have innerTest (context : Context) : Evaluates none ⟨#[], #[]⟩
      (.tree (.binary .lt (.var (.host .spl1)) (.binary .sub (.var (.host .spl0)) (.number 1.0))))
      context (BinaryOp.apply .lt context.spl1 (BinaryOp.apply .sub context.spl0 1.0)) context [] :=
    .binary (.var _ _) (.binary (.var _ _) (.number _ _))
  have outerStep (context : Context) : Evaluates none ⟨#[], #[]⟩
      (.tree (.assign .add (.var (.host .spl0)) (.number 1.0))) context 1.0
      (context.assignVar ⟨#[], #[]⟩ (.host .spl0) .add 1.0) [] :=
    .assign (.number _ _)
  have innerStep (context : Context) : Evaluates none ⟨#[], #[]⟩
      (.tree (.assign .add (.var (.host .spl1)) (.number 1.0))) context 1.0
      (context.assignVar ⟨#[], #[]⟩ (.host .spl1) .add 1.0) [] :=
    .assign (.number _ _)
  have evaluates :=
    Evaluates.whileLoop (.round (uncapped _) (outerTest .fresh) (by decide +kernel)
      (.block (.statement (outerStep _)
        (.statement (.whileLoop (.stopped (uncapped _) (innerTest _) (by decide +kernel)))
          (.nothing _ _))))
      (.round (uncapped _) (outerTest _) (by decide +kernel)
        (.block (.statement (outerStep _)
          (.statement (.whileLoop (.round (uncapped _) (innerTest _) (by decide +kernel)
            (innerStep _) (.stopped (uncapped _) (innerTest _) (by decide +kernel))))
            (.nothing _ _))))
        (.stopped (uncapped _) (outerTest _) (by decide +kernel))))
  exact ⟨_, _, _, evaluates, rfl, by decide,
    (eval_with_and_without_cap ⟨#[], #[]⟩ countTwice .fresh).1 _ _ _ evaluates (by decide),
    by rfl, by rfl⟩

end EffectScript.Machine
