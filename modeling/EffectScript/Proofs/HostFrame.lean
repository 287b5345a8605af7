import EffectScript.Machine.Interpreter
import EffectScript.Proofs.ExposedReads
import EffectScript.Proofs.Targets

/-!
# Host variables that stay

A tree can change a host variable only by an assignment to it.  So whatever course evaluation takes,
the host variables that a tree nowhere assigns hold at the end what they held at the beginning; in
particular a script that assigns no variable of the transport leaves the transport as it is.
-/

namespace EffectScript

namespace Language

mutual

/-- The host variables that evaluating a tree may assign. -/
@[simp]
def Node.assigns : Node → List HostVar
  | .sectionOf _ body => assignsAll body
  | .assign _ target value => value.assigns ++ target.hostVar
  | .binary _ left right => left.assigns ++ right.assigns
  | .unary _ operand => operand.assigns
  | .call _ _ arguments => assignsAll arguments
  | .var _ => []
  | .element _ index => index.assigns
  | .number _ => []
  | .string _ => []
  | .ifThen condition thenBranch => condition.assigns ++ thenBranch.assigns
  | .ifThenElse condition thenBranch elseBranch =>
    condition.assigns ++ thenBranch.assigns ++ elseBranch.assigns
  | .whileLoop condition body => condition.assigns ++ body.assigns
  | .block body => assignsAll body

/-- The host variables that evaluating trees in sequence may assign. -/
@[simp]
def assignsAll : List Node → List HostVar
  | [] => []
  | node :: rest => node.assigns ++ assignsAll rest

end

/-- The variables of the transport. -/
def transportVars : List HostVar := [.tempo, .beatPosition, .playState, .tsNum, .tsDenom]

end Language

namespace Machine

open EffectScript.Language

variable {bindings : Bindings}

theorem Context.host?_assignVar_of_not_mem (context : Context) {var : Var} {other : HostVar}
    (apart : other ∉ Node.hostVar (.var var)) (op : AssignOp) (value : Float) :
    (context.assignVar bindings var op value).host? other = context.host? other := by
  cases var with
  | host var =>
    exact context.host?_assignVar_of_ne (fun same => apart (by simp [Node.hostVar, same])) op value
  | named name symbol => exact context.host?_assignVar_named name symbol op value other

/-! ### Trees -/

mutual

/-- A tree assigns the host variables among its targets. -/
theorem assigns_eq (node : Node) :
    node.assigns = node.targets.flatMap fun var => Node.hostVar (.var var) := by
  cases node with
  | number | string | var => rfl
  | assign op target value =>
    cases target <;> simp [assigns_eq value, Node.variable, Node.hostVar]
  | binary op left right => simp [assigns_eq left, assigns_eq right]
  | unary op operand => exact assigns_eq operand
  | call name function arguments => exact assignsAll_eq arguments
  | element name index => exact assigns_eq index
  | ifThen condition thenBranch => simp [assigns_eq condition, assigns_eq thenBranch]
  | ifThenElse condition thenBranch elseBranch =>
    simp [assigns_eq condition, assigns_eq thenBranch, assigns_eq elseBranch]
  | whileLoop condition body => simp [assigns_eq condition, assigns_eq body]
  | block body => exact assignsAll_eq body
  | sectionOf name body => exact assignsAll_eq body

theorem assignsAll_eq (nodes : List Node) :
    assignsAll nodes = (targetsAll nodes).flatMap fun var => Node.hostVar (.var var) := by
  cases nodes with
  | nil => rfl
  | cons node rest => simp [assigns_eq node, assignsAll_eq rest]

end

/-- Trees leave every host variable that they nowhere assign. -/
theorem evalAll_leaves (last : Float) (nodes : List Node) {var : HostVar}
    (spared : var ∉ assignsAll nodes) :
    Eval.Leaves (·.host? var) (evalAll bindings last nodes) := by
  apply evalAll_leaves_of_targets
  intro target stored context op value
  apply context.host?_assignVar_of_not_mem
  rw [assignsAll_eq, List.mem_flatMap] at spared
  exact fun same => spared ⟨target, stored, same⟩

/-! ### The transport -/

theorem Context.transport_ext {first second : Context}
    (same : ∀ var ∈ transportVars, first.host? var = second.host? var) :
    first.transport = second.transport := by
  obtain ⟨_, _, _, _, _, ⟨_, _, _, _, _⟩⟩ := first
  obtain ⟨_, _, _, _, _, ⟨_, _, _, _, _⟩⟩ := second
  simpa [transportVars, host?] using same

theorem transport_evalAll (last : Float) {nodes : List Node}
    (spared : ∀ var ∈ assignsAll nodes, var ∉ transportVars) (context : Context) :
    (evalAll bindings last nodes context).2.transport = context.transport :=
  Context.transport_ext fun _ member =>
    evalAll_leaves last nodes (fun assigned => spared _ assigned member) context

end Machine

open EffectScript.Language Machine Script

/-- Whether a section assigns no variable of the transport. -/
def Script.sparesTransport (script : Script) (kind : SectionKind) : Bool :=
  match script.body? kind with
  | some body => (assignsAll body).all (· ∉ transportVars)
  | none => true

namespace Interpreter

theorem installed_run (interpreter : Interpreter) (kind : SectionKind) :
    (interpreter.run kind).installed = interpreter.installed := by
  obtain ⟨context, installed, cpu⟩ := interpreter
  cases installed <;> rfl

/-- A section that assigns no variable of the transport leaves it. -/
theorem transport_run {interpreter : Interpreter} {installed : Installed} {kind : SectionKind}
    (present : interpreter.installed = some installed)
    (spared : installed.script.sparesTransport kind = true) :
    (interpreter.run kind).context.transport = interpreter.context.transport := by
  obtain ⟨context, _, cpu⟩ := interpreter
  obtain rfl := present
  change (installed.run kind context).transport = context.transport
  rw [Script.sparesTransport] at spared
  rw [Installed.run]
  cases found : installed.script.body? kind with
  | none => rfl
  | some body =>
    simp only [found, List.all_eq_true, decide_eq_true_eq] at spared
    exact transport_evalAll 0.0 spared context

end Interpreter

end EffectScript
