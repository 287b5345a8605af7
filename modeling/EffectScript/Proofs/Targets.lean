import EffectScript.Machine.Eval

/-!
# What a tree stores to

The targets of a tree are the variables to which evaluating it may store.  Whatever the stores to
its targets leave as it is, the tree leaves as it is, whatever course its evaluation takes.
-/

namespace EffectScript

namespace Language

/-- The variable that a tree is. -/
def Node.variable : Node → List Var
  | .var found => [found]
  | _ => []

mutual

/-- The variables to which evaluating a tree may store. -/
@[simp]
def Node.targets : Node → List Var
  | .sectionOf _ body => targetsAll body
  | .assign _ target value => value.targets ++ target.variable
  | .binary _ left right => left.targets ++ right.targets
  | .unary _ operand => operand.targets
  | .call _ _ arguments => targetsAll arguments
  | .var _ => []
  | .element _ index => index.targets
  | .number _ => []
  | .string _ => []
  | .ifThen condition thenBranch => condition.targets ++ thenBranch.targets
  | .ifThenElse condition thenBranch elseBranch =>
    condition.targets ++ thenBranch.targets ++ elseBranch.targets
  | .whileLoop condition body => condition.targets ++ body.targets
  | .block body => targetsAll body

/-- The variables to which evaluating trees in sequence may store. -/
@[simp]
def targetsAll : List Node → List Var
  | [] => []
  | node :: rest => node.targets ++ targetsAll rest

end

end Language

namespace Machine

open EffectScript.Language

variable {bindings : Bindings}

/-! ### Computations that leave something -/

namespace Eval

variable {α β γ : Type} {view : Context → γ}

/-- A computation does not change what is seen of the context. -/
def Leaves (view : Context → γ) (computation : Eval α) : Prop :=
  ∀ context, view (computation context).2 = view context

theorem Leaves.pure (value : α) : Leaves view (Pure.pure value : Eval α) :=
  fun _ => rfl

theorem Leaves.bind {computation : Eval α} {next : α → Eval β}
    (leaves : Leaves view computation) (leavesNext : ∀ value, Leaves view (next value)) :
    Leaves view (computation >>= next) :=
  fun context =>
    (leavesNext (computation context).1 (computation context).2).trans (leaves context)

theorem Leaves.loop {condition body : Eval Float} (leavesCondition : Leaves view condition)
    (leavesBody : Leaves view body) (rounds : Nat) (last : Float) :
    Leaves view (loop condition body rounds last) := by
  induction rounds generalizing last with
  | zero => exact .pure last
  | succ rounds ih =>
    refine leavesCondition.bind fun test => ?_
    split
    · exact leavesBody.bind fun value => ih value
    · exact .pure last

end Eval

/-! ### Trees -/

/-- A store to the variable does not change what is seen of a context. -/
def Spares {γ : Type} (view : Context → γ) (bindings : Bindings) (var : Var) : Prop :=
  ∀ (context : Context) (op : AssignOp) (value : Float),
    view (context.assignVar bindings var op value) = view context

variable {γ : Type} {view : Context → γ}

mutual

/-- A tree leaves what all stores to its targets leave. -/
theorem eval_leaves_of_targets (node : Node)
    (spared : ∀ var ∈ node.targets, Spares view bindings var) :
    Eval.Leaves view (eval bindings node) := by
  cases node with
  | number value => exact .pure value
  | string text => exact .pure 0.0
  | var found => exact fun _ => rfl
  | assign op target value =>
    rw [Node.targets, List.forall_mem_append] at spared
    apply (eval_leaves_of_targets value spared.1).bind
    intro stored
    cases target with
    | var found =>
      have store := spared.2 found (by simp [Node.variable])
      exact fun context => store context op stored
    | _ => exact .pure 0.0
  | binary op left right =>
    rw [Node.targets, List.forall_mem_append] at spared
    apply (eval_leaves_of_targets left spared.1).bind
    intro leftValue
    exact (eval_leaves_of_targets right spared.2).bind fun _ => .pure _
  | unary op operand => exact (eval_leaves_of_targets operand spared).bind fun _ => .pure _
  | call name function arguments =>
    apply (evalArguments_leaves_of_targets arguments spared).bind
    intro values
    split
    · exact .pure _
    · exact .pure 0.0
  | element name index => exact (eval_leaves_of_targets index spared).bind fun _ => fun _ => rfl
  | ifThen condition thenBranch =>
    rw [Node.targets, List.forall_mem_append] at spared
    apply (eval_leaves_of_targets condition spared.1).bind
    intro test
    split
    · exact eval_leaves_of_targets thenBranch spared.2
    · exact .pure 0.0
  | ifThenElse condition thenBranch elseBranch =>
    rw [Node.targets, List.forall_mem_append, List.forall_mem_append] at spared
    apply (eval_leaves_of_targets condition spared.1.1).bind
    intro test
    split
    · exact eval_leaves_of_targets thenBranch spared.1.2
    · exact eval_leaves_of_targets elseBranch spared.2
  | whileLoop condition body =>
    rw [Node.targets, List.forall_mem_append] at spared
    exact (eval_leaves_of_targets condition spared.1).loop (eval_leaves_of_targets body spared.2)
      loopLimit 0.0
  | block body => exact evalAll_leaves_of_targets 0.0 body spared
  | sectionOf name body => exact evalAll_leaves_of_targets 0.0 body spared

theorem evalAll_leaves_of_targets (last : Float) (nodes : List Node)
    (spared : ∀ var ∈ targetsAll nodes, Spares view bindings var) :
    Eval.Leaves view (evalAll bindings last nodes) := by
  cases nodes with
  | nil => exact .pure last
  | cons node rest =>
    rw [targetsAll, List.forall_mem_append] at spared
    apply (eval_leaves_of_targets node spared.1).bind
    intro value
    exact evalAll_leaves_of_targets value rest spared.2

theorem evalArguments_leaves_of_targets (nodes : List Node)
    (spared : ∀ var ∈ targetsAll nodes, Spares view bindings var) :
    Eval.Leaves view (evalArguments bindings nodes) := by
  cases nodes with
  | nil => exact .pure []
  | cons node rest =>
    rw [targetsAll, List.forall_mem_append] at spared
    apply (eval_leaves_of_targets node spared.1).bind
    intro value
    exact (evalArguments_leaves_of_targets rest spared.2).bind fun _ => .pure _

end

end Machine

end EffectScript
