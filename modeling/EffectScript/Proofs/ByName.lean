import EffectScript.Machine.Eval
import EffectScript.Proofs.ArenaLayout
import EffectScript.Proofs.Interning

/-!
# Evaluation by name

A second evaluator looks every variable and every function up by its name whenever it meets one, and
knows nothing of numbers.  In a context whose arena resolves the names of the program, both
evaluators give the same value and leave the same context, in which the names are still resolved.
-/

namespace EffectScript.Machine

open EffectScript.Language

/-! ### The evaluator -/

namespace ByName

/-- The value of a variable, found by its name. -/
def readVar (context : Context) : Var → Float
  | .host var => (context.host? var).getD 0.0
  | .named name _ => context.arena.get name

/-- Store to a variable, found by its name. -/
def assignVar (context : Context) (var : Var) (op : AssignOp) (value : Float) : Context :=
  match var with
  | .host var =>
    match context.host? var with
    | some old => context.setHost var (op.combine old value)
    | none => context
  | .named name _ =>
    let stored := op.combine (context.arena.get name) value
    { context with arena := (context.arena.set name stored).value }

mutual

/-- Evaluate a tree, finding variables and functions by their names. -/
def eval : Node → Eval Float
  | .number value => return value
  | .string _ => return 0.0
  | .var var => do
    return readVar (← get) var
  | .assign op target value => do
    let value ← eval value
    match target with
    | .var var =>
      modify fun context => assignVar context var op value
      return value
    | _ => return 0.0
  | .binary op left right => do
    let left ← eval left
    let right ← eval right
    return op.apply left right
  | .unary op operand => do
    return op.apply (← eval operand)
  | .call name _ arguments => do
    let values ← evalArguments arguments
    return callByName name (values.take argumentLimit)
  | .element name index => do
    let index ← eval index
    return (← get).readElement name index
  | .ifThen condition thenBranch => do
    if isTrue (← eval condition) then eval thenBranch
    else return 0.0
  | .ifThenElse condition thenBranch elseBranch => do
    if isTrue (← eval condition) then eval thenBranch
    else eval elseBranch
  | .whileLoop condition body => Eval.loop (eval condition) (eval body) loopLimit 0.0
  | .block body => evalAll 0.0 body
  | .sectionOf _ body => evalAll 0.0 body

/-- Evaluate statements in sequence; the value is that of the last, or `last` if there is none. -/
def evalAll (last : Float) : List Node → Eval Float
  | [] => return last
  | node :: rest => do
    let value ← eval node
    evalAll value rest

/-- Evaluate arguments from left to right. -/
def evalArguments : List Node → Eval (List Float)
  | [] => return []
  | node :: rest => do
    let value ← eval node
    let values ← evalArguments rest
    return value :: values

end

end ByName

/-! ### Agreement of evaluators -/

namespace Eval

variable {α β : Type}

/-- Two computations do the same in every context with an invariant, and keep the invariant. -/
def Agree (invariant : Context → Prop) (first second : Eval α) : Prop :=
  ∀ context, invariant context →
    first context = second context ∧ invariant (first context).2

variable {invariant : Context → Prop}

theorem Agree.pure (value : α) : Agree invariant (Pure.pure value) (Pure.pure value) :=
  fun _ holds => ⟨rfl, holds⟩

theorem Agree.bind {first second : Eval α} {next other : α → Eval β}
    (agree : Agree invariant first second)
    (agreeNext : ∀ value, Agree invariant (next value) (other value)) :
    Agree invariant (first >>= next) (second >>= other) := by
  intro context holds
  obtain ⟨same, kept⟩ := agree context holds
  have later := agreeNext (first context).1 (first context).2 kept
  refine ⟨?_, later.2⟩
  change next (first context).1 (first context).2 = other (second context).1 (second context).2
  rw [later.1, same]

/-- Reading agrees if the values read do. -/
theorem Agree.get {view other : Context → α}
    (same : ∀ context, invariant context → view context = other context) :
    Agree invariant (do return view (← MonadState.get)) (do return other (← MonadState.get)) :=
  fun context holds => ⟨congrArg (·, context) (same context holds), holds⟩

theorem Agree.loop {condition body condition' body' : Eval Float}
    (agreeCondition : Agree invariant condition condition')
    (agreeBody : Agree invariant body body') (rounds : Nat) (last : Float) :
    Agree invariant (loop condition body rounds last) (loop condition' body' rounds last) := by
  induction rounds generalizing last with
  | zero => exact .pure last
  | succ rounds ih =>
    refine agreeCondition.bind fun test => ?_
    split
    · exact agreeBody.bind fun value => ih value
    · exact .pure last

end Eval

/-! ### Resolved names -/

/-- Bindings say of every listed name what the arena says of it; a listed name without a cell stays
without one, as the arena is full. -/
structure Bindings.Resolve (bindings : Bindings) (program : Program) (arena : Arena) : Prop where
  slot_eq {symbol : Nat} {name : String} : program.symbols[symbol]? = some name →
    bindings.slot? symbol = arena.address? name
  full {symbol : Nat} {name : String} : program.symbols[symbol]? = some name →
    arena.address? name = none → arenaSize ≤ arena.nextFree
  function_eq {number : Nat} {name : String} : program.functions[number]? = some name →
    bindings.function? number = Builtin.ofName? name

variable {bindings : Bindings} {program : Program}

/-- Names stay resolved when an arena is extended. -/
theorem Bindings.Resolve.extends {before after : Arena} (resolve : bindings.Resolve program before)
    (extended : before.Extends after) : bindings.Resolve program after where
  slot_eq {symbol name} listed := by
    rw [resolve.slot_eq listed]
    cases bound : before.address? name with
    | some address => rw [extended.address_eq bound]
    | none => rw [extended.address_eq_of_full name (resolve.full listed bound), bound]
  full {symbol name} listed unbound := by
    cases bound : before.address? name with
    | some address =>
      rw [extended.address_eq bound] at unbound
      contradiction
    | none => exact Nat.le_trans (resolve.full listed bound) extended.nextFree_le
  function_eq := resolve.function_eq

/-- The names of a program are resolved in a context. -/
def Context.Resolved (bindings : Bindings) (program : Program) (context : Context) : Prop :=
  bindings.Resolve program context.arena

theorem Arena.set_of_bound {arena : Arena} {name : String} {address : Nat}
    (bound : arena.address? name = some address) (value : Float) :
    (arena.set name value).value = arena.write address value := by
  rw [Arena.set_value]
  simp [Arena.bind, bound]

theorem Arena.set_of_full {arena : Arena} {name : String} (unbound : arena.address? name = none)
    (full : arenaSize ≤ arena.nextFree) (value : Float) :
    (arena.set name value).value = arena := by
  rw [Arena.set_value]
  simp [Arena.bind, unbound, full]

theorem Arena.get_of_bound {arena : Arena} {name : String} {address : Nat}
    (bound : arena.address? name = some address) : arena.get name = arena.read address := by
  simp [Arena.get, bound]

theorem Arena.get_of_unbound {arena : Arena} {name : String}
    (unbound : arena.address? name = none) : arena.get name = 0.0 := by
  simp [Arena.get, unbound]

namespace Context

@[simp]
theorem arena_setHost (context : Context) (var : HostVar) (value : Float) :
    (context.setHost var value).arena = context.arena := by
  cases var <;> rfl

variable {context : Context} (resolved : context.Resolved bindings program) {var : Var}
  (listed : var.mention.Listed program.symbols program.functions)

include resolved listed

theorem readVar_eq_byName : context.readVar bindings var = ByName.readVar context var := by
  cases var with
  | host var => rfl
  | named name symbol =>
    have slot := resolved.slot_eq listed
    cases bound : context.arena.address? name with
    | some address => simp [readVar, ByName.readVar, slot, bound, Arena.get_of_bound bound]
    | none => simp [readVar, ByName.readVar, slot, bound, Arena.get_of_unbound bound]

theorem assignVar_eq_byName (op : AssignOp) (value : Float) :
    context.assignVar bindings var op value = ByName.assignVar context var op value := by
  cases var with
  | host var => rfl
  | named name symbol =>
    have slot := resolved.slot_eq listed
    cases bound : context.arena.address? name with
    | some address =>
      simp [assignVar, ByName.assignVar, slot, bound, Arena.get_of_bound bound,
        Arena.set_of_bound bound, Arena.update]
    | none =>
      have full := resolved.full listed bound
      simp [assignVar, ByName.assignVar, slot, bound, Arena.set_of_full bound full]

omit listed in
theorem Resolved.assignVar (op : AssignOp) (value : Float) :
    (context.assignVar bindings var op value).Resolved bindings program := by
  unfold Context.assignVar
  split
  · split
    · rwa [Resolved, arena_setHost]
    · exact resolved
  · split
    · exact Bindings.Resolve.extends resolved (.ofChange (context.arena.change_write _ _))
    · exact resolved

end Context

mutual

/-- A tree whose mentions are listed has the same meaning by number and by name. -/
theorem eval_agree (node : Node)
    (listed : ∀ mention ∈ node.mentions, mention.Listed program.symbols program.functions) :
    Eval.Agree (Context.Resolved bindings program) (eval bindings node) (ByName.eval node) := by
  cases node with
  | number value => exact .pure value
  | string text => exact .pure 0.0
  | var var =>
    exact .get fun context resolved =>
      context.readVar_eq_byName resolved (listed _ (by simp [Node.mentions]))
  | assign op target value =>
    simp only [Node.mentions, List.mem_append] at listed
    refine (eval_agree value fun mention member => listed mention (.inr member)).bind
      fun stored => ?_
    cases target with
    | var var =>
      intro context resolved
      have known := listed var.mention (.inl (by simp [Node.mentions]))
      exact ⟨congrArg (stored, ·) (context.assignVar_eq_byName resolved known op stored),
        Context.Resolved.assignVar resolved op stored⟩
    | _ => exact .pure 0.0
  | binary op left right =>
    simp only [Node.mentions, List.mem_append] at listed
    refine (eval_agree left fun mention member => listed mention (.inl member)).bind
      fun leftValue => ?_
    exact (eval_agree right fun mention member => listed mention (.inr member)).bind
      fun rightValue => .pure _
  | unary op operand => exact (eval_agree operand listed).bind fun value => .pure _
  | call name function arguments =>
    simp only [Node.mentions, List.mem_append, List.mem_singleton] at listed
    refine (evalArguments_agree arguments fun mention member => listed mention (.inl member)).bind
      fun values context resolved => ?_
    have known : bindings.function? function = Builtin.ofName? name :=
      resolved.function_eq (listed _ (.inr rfl))
    rw [known, callByName]
    cases Builtin.ofName? name with
    | some builtin => exact ⟨rfl, resolved⟩
    | none => exact ⟨rfl, resolved⟩
  | element name index =>
    exact (eval_agree index listed).bind fun value => .get fun _ _ => rfl
  | ifThen condition thenBranch =>
    simp only [Node.mentions, List.mem_append] at listed
    refine (eval_agree condition fun mention member => listed mention (.inl member)).bind
      fun test => ?_
    split
    · exact eval_agree thenBranch fun mention member => listed mention (.inr member)
    · exact .pure 0.0
  | ifThenElse condition thenBranch elseBranch =>
    simp only [Node.mentions, List.mem_append] at listed
    refine (eval_agree condition fun mention member => listed mention (.inl (.inl member))).bind
      fun test => ?_
    split
    · exact eval_agree thenBranch fun mention member => listed mention (.inl (.inr member))
    · exact eval_agree elseBranch fun mention member => listed mention (.inr member)
  | whileLoop condition body =>
    simp only [Node.mentions, List.mem_append] at listed
    exact .loop (eval_agree condition fun mention member => listed mention (.inl member))
      (eval_agree body fun mention member => listed mention (.inr member)) loopLimit 0.0
  | block body => exact evalAll_agree 0.0 body listed
  | sectionOf name body =>
    refine evalAll_agree 0.0 body fun mention member => listed mention ?_
    simp [Node.mentions, member]

theorem evalAll_agree (last : Float) (nodes : List Node)
    (listed : ∀ mention ∈ mentionsAll nodes,
      mention.Listed program.symbols program.functions) :
    Eval.Agree (Context.Resolved bindings program) (evalAll bindings last nodes)
      (ByName.evalAll last nodes) := by
  cases nodes with
  | nil => exact .pure last
  | cons node rest =>
    simp only [mentionsAll, List.mem_append] at listed
    refine (eval_agree node fun mention member => listed mention (.inl member)).bind
      fun value => ?_
    exact evalAll_agree value rest fun mention member => listed mention (.inr member)

theorem evalArguments_agree (nodes : List Node)
    (listed : ∀ mention ∈ mentionsAll nodes,
      mention.Listed program.symbols program.functions) :
    Eval.Agree (Context.Resolved bindings program) (evalArguments bindings nodes)
      (ByName.evalArguments nodes) := by
  cases nodes with
  | nil => exact .pure []
  | cons node rest =>
    simp only [mentionsAll, List.mem_append] at listed
    refine (eval_agree node fun mention member => listed mention (.inl member)).bind
      fun value => ?_
    exact (evalArguments_agree rest fun mention member => listed mention (.inr member)).bind
      fun values => .pure _

end

end EffectScript.Machine
