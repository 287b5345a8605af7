import EffectScript.Proofs.HostFrame
import EffectScript.Proofs.InstalledScript
import EffectScript.Proofs.NameCells
import EffectScript.Proofs.Targets

/-!
# What evaluation writes

Evaluating a part of an installed script changes nothing but the variables to which that part
assigns: not the other host variables, not the other cells, hence no array and no other variable,
and never the layout of the arena.  This holds in every state that can follow the installation,
because there the slots are the addresses of the names, and names and arrays lie apart.
-/

namespace EffectScript

namespace Language

/-! ### Parts of a tree -/

/-- The trees directly below a node. -/
def Node.children : Node → List Node
  | .sectionOf _ body => body
  | .assign _ target value => [target, value]
  | .binary _ left right => [left, right]
  | .unary _ operand => [operand]
  | .call _ _ arguments => arguments
  | .var _ => []
  | .element _ index => [index]
  | .number _ => []
  | .string _ => []
  | .ifThen condition thenBranch => [condition, thenBranch]
  | .ifThenElse condition thenBranch elseBranch => [condition, thenBranch, elseBranch]
  | .whileLoop condition body => [condition, body]
  | .block body => body

/-- A tree stands somewhere in another one, or is that tree. -/
inductive Node.PartOf (part : Node) : Node → Prop
  | whole : part.PartOf part
  | within {child whole : Node} :
      child ∈ whole.children → part.PartOf child → part.PartOf whole

/-- Somewhere in a tree stands an assignment to the variable. -/
def Node.AssignsTo (node : Node) (var : Var) : Prop :=
  ∃ op value, (Node.assign op (.var var) value).PartOf node

theorem Node.AssignsTo.within {child whole : Node} {var : Var} (member : child ∈ whole.children)
    (assigned : child.AssignsTo var) : whole.AssignsTo var := by
  obtain ⟨op, value, part⟩ := assigned
  exact ⟨op, value, .within member part⟩

mutual

/-- What evaluating a tree may store to is the target of an assignment in it. -/
theorem assignsTo_of_mem_targets (node : Node) {var : Var} (stored : var ∈ node.targets) :
    node.AssignsTo var := by
  cases node with
  | number | string | var => exact absurd stored List.not_mem_nil
  | assign op target value =>
    rcases List.mem_append.1 stored with stored | stored
    · exact (assignsTo_of_mem_targets value stored).within (by simp [Node.children])
    · cases target with
      | var found =>
        obtain rfl := List.mem_singleton.1 stored
        exact ⟨op, value, .whole⟩
      | _ => exact absurd stored List.not_mem_nil
  | binary op left right =>
    rcases List.mem_append.1 stored with stored | stored
    · exact (assignsTo_of_mem_targets left stored).within (by simp [Node.children])
    · exact (assignsTo_of_mem_targets right stored).within (by simp [Node.children])
  | unary op operand =>
    exact (assignsTo_of_mem_targets operand stored).within (by simp [Node.children])
  | call name function arguments =>
    obtain ⟨argument, member, assigned⟩ := assignsTo_of_mem_targetsAll arguments stored
    exact assigned.within member
  | element name index =>
    exact (assignsTo_of_mem_targets index stored).within (by simp [Node.children])
  | ifThen condition thenBranch =>
    rcases List.mem_append.1 stored with stored | stored
    · exact (assignsTo_of_mem_targets condition stored).within (by simp [Node.children])
    · exact (assignsTo_of_mem_targets thenBranch stored).within (by simp [Node.children])
  | ifThenElse condition thenBranch elseBranch =>
    rcases List.mem_append.1 stored with stored | stored
    · rcases List.mem_append.1 stored with stored | stored
      · exact (assignsTo_of_mem_targets condition stored).within (by simp [Node.children])
      · exact (assignsTo_of_mem_targets thenBranch stored).within (by simp [Node.children])
    · exact (assignsTo_of_mem_targets elseBranch stored).within (by simp [Node.children])
  | whileLoop condition body =>
    rcases List.mem_append.1 stored with stored | stored
    · exact (assignsTo_of_mem_targets condition stored).within (by simp [Node.children])
    · exact (assignsTo_of_mem_targets body stored).within (by simp [Node.children])
  | block body =>
    obtain ⟨statement, member, assigned⟩ := assignsTo_of_mem_targetsAll body stored
    exact assigned.within member
  | sectionOf name body =>
    obtain ⟨statement, member, assigned⟩ := assignsTo_of_mem_targetsAll body stored
    exact assigned.within member

theorem assignsTo_of_mem_targetsAll (nodes : List Node) {var : Var}
    (stored : var ∈ targetsAll nodes) : ∃ node ∈ nodes, node.AssignsTo var := by
  cases nodes with
  | nil => exact absurd stored List.not_mem_nil
  | cons node rest =>
    rcases List.mem_append.1 stored with stored | stored
    · exact ⟨node, List.mem_cons_self, assignsTo_of_mem_targets node stored⟩
    · obtain ⟨other, member, assigned⟩ := assignsTo_of_mem_targetsAll rest stored
      exact ⟨other, List.mem_cons_of_mem node member, assigned⟩

end

theorem Node.mentions_of_child {child whole : Node} (member : child ∈ whole.children)
    {mention : Mention} (mentioned : mention ∈ child.mentions) : mention ∈ whole.mentions := by
  cases whole with
  | number | string | var => exact absurd member List.not_mem_nil
  | sectionOf name body => exact List.mem_cons_of_mem _ (mem_mentionsAll member mentioned)
  | call name function arguments =>
    exact List.mem_append_left _ (mem_mentionsAll member mentioned)
  | block body => exact mem_mentionsAll member mentioned
  | ifThenElse condition thenBranch elseBranch =>
    simp only [children, List.mem_cons, List.not_mem_nil, or_false] at member
    rcases member with rfl | rfl | rfl <;> simp [mentions, mentioned]
  | assign | binary | ifThen | whileLoop =>
    simp only [children, List.mem_cons, List.not_mem_nil, or_false] at member
    rcases member with rfl | rfl <;> simp [mentions, mentioned]
  | unary | element =>
    obtain rfl := List.mem_singleton.1 member
    exact mentioned

/-- What a part of a tree mentions the tree mentions. -/
theorem Node.PartOf.mentions_subset {part whole : Node} (inside : part.PartOf whole) :
    part.mentions ⊆ whole.mentions := by
  induction inside with
  | whole => exact List.Subset.refl _
  | within member _ ih => exact fun mention mentioned => mentions_of_child member (ih mentioned)

/-- A variable to which a tree assigns is mentioned in it. -/
theorem Node.AssignsTo.mention_mem {node : Node} {var : Var} (assigned : node.AssignsTo var) :
    var.mention ∈ node.mentions := by
  obtain ⟨op, value, part⟩ := assigned
  exact part.mentions_subset (by simp [mentions])

end Language

namespace Machine

open EffectScript.Language

variable {bindings : Bindings} {program : Program}

/-! ### Stores to variables -/

/-- The names, the arrays and the cursor of an arena. -/
def Arena.layout (arena : Arena) : Std.HashMap String Nat × Std.HashMap String Region × Nat :=
  (arena.names, arena.arrays, arena.nextFree)

theorem Arena.change_of_layout_eq {before after : Arena} (same : after.layout = before.layout) :
    Change before after := by
  obtain ⟨cells, names, arrays, nextFree⟩ := after
  obtain ⟨rfl, rfl, rfl⟩ : names = before.names ∧ arrays = before.arrays ∧
      nextFree = before.nextFree := by
    simpa [layout] using same
  exact .keep cells

theorem Arena.read_write_of_ne (arena : Arena) {address other : Nat} (different : address ≠ other)
    (value : Float) : (arena.write address value).read other = arena.read other := by
  simp [read, write, Vector.getElem?_setIfInBounds_ne different]

/-- No store moves a name or an array. -/
theorem spares_layout (var : Var) : Spares (·.arena.layout) bindings var := by
  intro context op value
  cases var with
  | host var => exact congrArg Arena.layout (context.arena_assignVar_host var op value)
  | named name symbol =>
    rw [Context.assignVar]
    split <;> rfl

/-- A store to a variable spares every cell but its slot. -/
theorem spares_cell {var : Var} {address : Nat}
    (apart : ∀ name symbol, var = .named name symbol → bindings.slot? symbol ≠ some address) :
    Spares (·.arena.read address) bindings var := by
  intro context op value
  cases var with
  | host var =>
    exact congrArg (Arena.read · address) (context.arena_assignVar_host var op value)
  | named name symbol =>
    dsimp only
    rw [Context.assignVar]
    split
    · rename_i slot found
      have different : slot ≠ address := by
        rintro rfl
        exact apart name symbol rfl found
      exact context.arena.read_write_of_ne different _
    · rfl

/-- A store to a host variable spares the others. -/
theorem spares_host {var : Var} {other : HostVar} (different : var ≠ .host other) :
    Spares (·.host? other) bindings var := by
  intro context op value
  apply context.host?_assignVar_of_not_mem
  intro same
  cases var with
  | host var => exact different (congrArg Var.host (List.mem_singleton.1 same).symm)
  | named name symbol => exact absurd same List.not_mem_nil

/-! ### Evaluation -/

/-- What a tree may have done to a context: only what it assigns differs. -/
structure WritesOnly (bindings : Bindings) (node : Node) (before after : Context) : Prop where
  host_eq (var : HostVar) :
    ¬node.AssignsTo (.host var) → after.host? var = before.host? var
  /-- Every cell stays but the slots of the assigned variables. -/
  cell_eq (address : Nat) :
    (∀ name symbol, node.AssignsTo (.named name symbol) → bindings.slot? symbol ≠ some address) →
      after.arena.read address = before.arena.read address
  /-- Every cell of every array stays. -/
  element_eq (array : String) (region : Region) (address : Nat) :
    before.arena.region? array = some region → region.Contains address →
      after.arena.read address = before.arena.read address
  /-- Every variable stays that is not assigned. -/
  get_eq (name : String) :
    (∀ symbol, ¬node.AssignsTo (.named name symbol)) →
      after.arena.get name = before.arena.get name
  names_eq : after.arena.names = before.arena.names
  arrays_eq : after.arena.arrays = before.arena.arrays
  nextFree_eq : after.arena.nextFree = before.arena.nextFree

theorem layout_eval (node : Node) (context : Context) :
    (eval bindings node context).2.arena.layout = context.arena.layout :=
  eval_leaves_of_targets node (fun var _ => spares_layout var) context

theorem read_eval {node : Node} {address : Nat}
    (apart : ∀ name symbol, node.AssignsTo (.named name symbol) →
      bindings.slot? symbol ≠ some address) (context : Context) :
    (eval bindings node context).2.arena.read address = context.arena.read address := by
  refine eval_leaves_of_targets node (fun var stored => spares_cell fun name symbol same => ?_)
    context
  exact apart name symbol (same ▸ assignsTo_of_mem_targets node stored)

theorem host?_eval {node : Node} {var : HostVar} (spared : ¬node.AssignsTo (.host var))
    (context : Context) : (eval bindings node context).2.host? var = context.host? var := by
  refine eval_leaves_of_targets node (fun other stored => spares_host ?_) context
  rintro rfl
  exact spared (assignsTo_of_mem_targets node stored)

/-- The names of a program are resolved in a context whose names and arrays lie apart. -/
structure Context.Settled (bindings : Bindings) (program : Program) (context : Context) :
    Prop where
  resolved : context.Resolved bindings program
  separated : context.arena.Separated

theorem Context.Settled.change {before after : Context} (settled : before.Settled bindings program)
    (change : before.arena.Change after.arena) : after.Settled bindings program where
  resolved := Bindings.Resolve.extends settled.resolved (.ofChange change)
  separated := settled.separated.change change

theorem Context.Settled.eval {context : Context} (settled : context.Settled bindings program)
    (node : Node) : (eval bindings node context).2.Settled bindings program :=
  settled.change (Arena.change_of_layout_eq (layout_eval node context))

/-- In a settled context, a tree whose mentions are listed writes only what it assigns. -/
theorem Context.Settled.writesOnly {context : Context} (settled : context.Settled bindings program)
    {node : Node}
    (listed : ∀ mention ∈ node.mentions, mention.Listed program.symbols program.functions) :
    WritesOnly bindings node context (Machine.eval bindings node context).2 := by
  have layout : (Machine.eval bindings node context).2.arena.layout = context.arena.layout :=
    layout_eval node context
  simp only [Arena.layout, Prod.mk.injEq] at layout
  -- The slot of an assigned variable is the address of its name.
  have bound (name : String) (symbol address : Nat) (assigned : node.AssignsTo (.named name symbol))
      (slot : bindings.slot? symbol = some address) :
      context.arena.address? name = some address := by
    rw [← settled.resolved.slot_eq (listed _ assigned.mention_mem), slot]
  constructor
  case host_eq => exact fun var spared => host?_eval spared context
  case cell_eq => exact fun address apart => read_eval apart context
  case element_eq =>
    intro array region address declared inside
    apply read_eval
    intro name symbol assigned slot
    exact settled.separated.address_not_in_region (bound name symbol address assigned slot)
      declared inside
  case get_eq =>
    intro name spared
    have same : (Machine.eval bindings node context).2.arena.address? name =
        context.arena.address? name := by
      rw [Arena.address?, layout.1, Arena.address?]
    rw [Arena.get, Arena.get, same]
    cases found : context.arena.address? name with
    | none => rfl
    | some address =>
      apply read_eval
      intro other symbol assigned slot
      obtain rfl := settled.separated.address_injective found
        (bound other symbol address assigned slot)
      exact spared symbol assigned
  case names_eq => exact layout.1
  case arrays_eq => exact layout.2.1
  case nextFree_eq => exact layout.2.2

end Machine

open EffectScript.Language Machine Script

/-! ### States after an installation -/

/-- A script keeps its context settled. -/
theorem Runner.agree_settled (script : Script) (bindings : Bindings) :
    Agree (Context.Settled bindings script.program) (ofInstalled ⟨script, bindings⟩)
      (ofInstalled ⟨script, bindings⟩) where
  has_eq _ := rfl
  run_eq kind {context} settled := by
    refine ⟨rfl, ?_⟩
    simp only [run_ofInstalled, Installed.run]
    split
    · rename_i body found
      exact settled.eval (.block body)
    · exact settled
  stable change settled := settled.change change

namespace Interpreter

/-- What an interpreter can become: it answers requests and takes processing times, parts of its
script are evaluated, and its context is edited in any way short of resetting the arena. -/
inductive Reaches (start : Interpreter) : Interpreter → Prop
  | start : start.Reaches start
  | answer {reached : Interpreter} (request : Request) :
      start.Reaches reached → start.Reaches (reached.answer request).2
  | record {reached : Interpreter} (elapsed : Float) :
      start.Reaches reached → start.Reaches (reached.recordTime elapsed)
  | evaluate {reached : Interpreter} {installed : Installed} (node : Node) :
      start.Reaches reached → reached.installed = some installed →
        start.Reaches
          { reached with context := (eval installed.bindings node reached.context).2 }
  | edit {reached : Interpreter} (operation : Arena.Operation) (edited : Context) :
      start.Reaches reached → operation ≠ .reset →
        edited.arena = reached.context.arena.apply operation →
        start.Reaches { reached with context := edited }

/-- Whatever happens after an installation, the script stays and its context is settled. -/
theorem Reaches.settled {start reached : Interpreter} (reaches : start.Reaches reached)
    {script : Script} {bindings : Bindings} (present : start.installed = some ⟨script, bindings⟩)
    (settled : start.context.Settled bindings script.program) :
    reached.installed = some ⟨script, bindings⟩ ∧
      reached.context.Settled bindings script.program := by
  induction reaches with
  | start => exact ⟨present, settled⟩
  | @answer reached request _ ih =>
    obtain ⟨context, _, cpu⟩ := reached
    obtain ⟨rfl, settled⟩ := ih
    rw [answer_eq_runner]
    exact ⟨rfl, ((Runner.agree_settled script bindings).answer settled request).2⟩
  | record elapsed _ ih => exact ih
  | evaluate node _ found ih =>
    obtain ⟨present, settled⟩ := ih
    obtain rfl := Option.some.inj (found.symm.trans present)
    exact ⟨present, settled.eval node⟩
  | @edit reached operation edited _ kept changed ih =>
    refine ⟨ih.1, ih.2.change ?_⟩
    rw [changed]
    exact reached.context.arena.change_apply kept

theorem install_settled (interpreter : Interpreter) (script : Script) :
    ∃ bindings, (interpreter.install script).value.installed = some ⟨script, bindings⟩ ∧
      (interpreter.install script).value.context.Settled bindings script.program := by
  obtain ⟨context, bindings, installed, cells, resolved⟩ := interpreter.install_resolves script
  refine ⟨bindings, by rw [installed], ?_⟩
  rw [installed]
  refine ⟨resolved, ?_⟩
  rw [cells]
  exact separated_bindNames Arena.separated_empty #[] script.program.symbols

/-- Wherever an interpreter gets after a compiled script was installed, evaluating any part of that
script writes only what the part assigns. -/
theorem eval_writesOnly_of_reaches {source : String} {script : Script}
    (compiled : (Script.compile source).value = .ok script) (interpreter : Interpreter)
    {reached : Interpreter} (reaches : (interpreter.install script).value.Reaches reached) :
    ∃ bindings, reached.installed = some ⟨script, bindings⟩ ∧
      ∀ item ∈ script.program.items, ∀ node : Node, node.PartOf item →
        WritesOnly bindings node reached.context (eval bindings node reached.context).2 := by
  obtain ⟨bindings, present, settled⟩ := interpreter.install_settled script
  obtain ⟨kept, settled⟩ := reaches.settled present settled
  refine ⟨bindings, kept, fun item member node inside => settled.writesOnly ?_⟩
  obtain ⟨⟨body, parsed⟩, _⟩ := compile_ok compiled
  intro mention mentioned
  exact (program_listed parsed).2 mention
    (mem_mentionsAll member (inside.mentions_subset mentioned))

/-- A script that reads past its array while it counts, after the array was declared and filled. -/
theorem eval_writesOnly_of_reaches_counter :
    ∃ script,
      (Script.compile "@sample n = n + buf[n]; spl0 = while (n < 9) n += 1;").value =
        .ok script ∧
      let declared := ((Interpreter.fresh.install script).value.answer (.allocateArray "buf" 4)).2
      let filled := { declared.context with arena := declared.context.arena.write 2 0.5 }
      ∃ bindings, declared.installed = some ⟨script, bindings⟩ ∧
        ∀ item ∈ script.program.items, ∀ node : Node, node.PartOf item →
          WritesOnly bindings node filled (eval bindings node filled).2 := by
  have accepted : (Script.compile
      "@sample n = n + buf[n]; spl0 = while (n < 9) n += 1;").value.isOk = true := by
    decide +kernel
  cases compiled : (Script.compile
      "@sample n = n + buf[n]; spl0 = while (n < 9) n += 1;").value with
  | error cause =>
    rw [compiled] at accepted
    contradiction
  | ok script =>
    refine ⟨script, rfl, ?_⟩
    intro declared filled
    have reaches : (Interpreter.fresh.install script).value.Reaches declared :=
      Reaches.start.answer (.allocateArray "buf" 4)
    have refills : (Interpreter.fresh.install script).value.Reaches
        { declared with context := filled } :=
      reaches.edit (.write 2 0.5) filled nofun rfl
    exact eval_writesOnly_of_reaches compiled Interpreter.fresh refills

end Interpreter

end EffectScript
