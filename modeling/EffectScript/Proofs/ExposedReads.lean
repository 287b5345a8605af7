import EffectScript.Proofs.ByName

/-!
# Host variables that matter

A section may store to a host variable before it reads it, and then it does not matter what the
variable held when the section started.  What may matter are the variables that are read as they
were found.  Sections that start from the same arena, and from host variables that agree where they
are read as found, take the same course and leave the same arena.
-/

namespace EffectScript

namespace Language

/-- The host variable that a tree is. -/
def Node.hostVar : Node → List HostVar
  | .var (.host found) => [found]
  | _ => []

/-- What is exposed behind trees that settle some variables. -/
def behind (settled exposed : List HostVar) : List HostVar :=
  exposed.filter (· ∉ settled)

mutual

/-- The host variables to which evaluating a tree plainly stores, whatever course it takes. -/
@[simp]
def Node.settles : Node → List HostVar
  | .sectionOf _ body => settlesAll body
  | .assign op target value => value.settles ++ if op = .set then target.hostVar else []
  | .binary _ left right => left.settles ++ right.settles
  | .unary _ operand => operand.settles
  | .call _ _ arguments => settlesAll arguments
  | .var _ => []
  | .element _ index => index.settles
  | .number _ => []
  | .string _ => []
  | .ifThen condition _ => condition.settles
  | .ifThenElse condition thenBranch elseBranch =>
    condition.settles ++ thenBranch.settles.filter (· ∈ elseBranch.settles)
  | .whileLoop condition _ => condition.settles
  | .block body => settlesAll body

/-- The host variables to which evaluating trees in sequence plainly stores. -/
@[simp]
def settlesAll : List Node → List HostVar
  | [] => []
  | node :: rest => node.settles ++ settlesAll rest

end

mutual

/-- The host variables that evaluating a tree may read as it finds them. -/
@[simp]
def Node.exposes : Node → List HostVar
  | .sectionOf _ body => exposesAll body
  | .assign _ _ value => value.exposes
  | .binary _ left right => left.exposes ++ behind left.settles right.exposes
  | .unary _ operand => operand.exposes
  | .call _ _ arguments => exposesAll arguments
  | .var var => Node.hostVar (.var var)
  | .element _ index => index.exposes
  | .number _ => []
  | .string _ => []
  | .ifThen condition thenBranch =>
    condition.exposes ++ behind condition.settles thenBranch.exposes
  | .ifThenElse condition thenBranch elseBranch =>
    condition.exposes ++ behind condition.settles (thenBranch.exposes ++ elseBranch.exposes)
  | .whileLoop condition body => condition.exposes ++ behind condition.settles body.exposes
  | .block body => exposesAll body

/-- The host variables that evaluating trees in sequence may read as they find them. -/
@[simp]
def exposesAll : List Node → List HostVar
  | [] => []
  | node :: rest => node.exposes ++ behind node.settles (exposesAll rest)

end

end Language

namespace Machine

open EffectScript.Language

variable {bindings : Bindings}

/-! ### Storing to a variable -/

theorem Arena.clear_update (arena : Arena) (address : Nat) (change : Float → Float) :
    (arena.update address change).clear = arena.clear := rfl

namespace Context

theorem host?_setHost_self (context : Context) (var : HostVar) (value : Float) :
    (context.setHost var value).host? var = (context.host? var).map fun _ => value := by
  cases var with
  | slider index =>
    by_cases bound : index < sliderCount <;> simp [setHost, host?, bound]
  | _ => rfl

theorem host?_setHost_of_ne (context : Context) {var other : HostVar} (different : var ≠ other)
    (value : Float) : (context.setHost var value).host? other = context.host? other := by
  cases var with
  | slider index =>
    cases other with
    | slider otherIndex =>
      have apart : index ≠ otherIndex := fun same => different (congrArg HostVar.slider same)
      simp [setHost, host?, apart]
    | _ => rfl
  | _ =>
    cases other with
    | _ =>
      first
      | rfl
      | exact absurd rfl different

theorem host?_assignVar_self (context : Context) (var : HostVar) (op : AssignOp) (value : Float) :
    (context.assignVar bindings (.host var) op value).host? var =
      (context.host? var).map (op.combine · value) := by
  rw [assignVar]
  cases found : context.host? var with
  | none => exact found
  | some old => rw [host?_setHost_self, found, Option.map_some, Option.map_some]

theorem host?_assignVar_of_ne (context : Context) {var other : HostVar} (different : var ≠ other)
    (op : AssignOp) (value : Float) :
    (context.assignVar bindings (.host var) op value).host? other = context.host? other := by
  rw [assignVar]
  split
  · rw [host?_setHost_of_ne _ different]
  · rfl

theorem arena_assignVar_host (context : Context) (var : HostVar) (op : AssignOp) (value : Float) :
    (context.assignVar bindings (.host var) op value).arena = context.arena := by
  rw [assignVar]
  split
  · rw [arena_setHost]
  · rfl

theorem host?_assignVar_named (context : Context) (name : String) (symbol : Nat) (op : AssignOp)
    (value : Float) (other : HostVar) :
    (context.assignVar bindings (.named name symbol) op value).host? other =
      context.host? other := by
  rw [assignVar]
  split
  · cases other <;> rfl
  · rfl

theorem arena_assignVar_named (context : Context) (name : String) (symbol : Nat) (op : AssignOp)
    (value : Float) :
    (context.assignVar bindings (.named name symbol) op value).arena =
      match bindings.slot? symbol with
      | some address => context.arena.update address (op.combine · value)
      | none => context.arena := by
  rw [assignVar]
  cases bindings.slot? symbol <;> rfl

/-- Whether a host variable has a value does not depend on the context. -/
theorem isSome_host? (first second : Context) (var : HostVar) :
    (first.host? var).isSome = (second.host? var).isSome := by
  cases var with
  | slider index => by_cases bound : index < sliderCount <;> simp [host?, bound]
  | _ => rfl

/-! ### Contexts that agree -/

/-- Two contexts with one arena, which is laid out as given, agree on the known host variables. -/
structure Alike (layout : Arena) (known : HostVar → Prop) (first second : Context) : Prop where
  arena : first.arena = second.arena
  laidOut : first.arena.clear = layout
  host (var : HostVar) : known var → first.host? var = second.host? var

variable {layout : Arena} {known : HostVar → Prop} {first second : Context}

theorem Alike.mono {fewer : HostVar → Prop} (alike : Alike layout known first second)
    (weaken : ∀ var, fewer var → known var) : Alike layout fewer first second :=
  ⟨alike.arena, alike.laidOut, fun var seen => alike.host var (weaken var seen)⟩

theorem Alike.readVar (alike : Alike layout known first second) {var : Var}
    (covered : ∀ host ∈ Node.hostVar (.var var), known host) :
    first.readVar bindings var = second.readVar bindings var := by
  cases var with
  | host var =>
    have seen := covered var (by simp [Node.hostVar])
    rw [Context.readVar, Context.readVar, alike.host var seen]
  | named name symbol => rw [Context.readVar, Context.readVar, alike.arena]

theorem Alike.readElement (alike : Alike layout known first second) (name : String)
    (index : Float) : first.readElement name index = second.readElement name index := by
  rw [Context.readElement, Context.readElement, alike.arena]

theorem Alike.assignVar (alike : Alike layout known first second) (var : Var) (op : AssignOp)
    (value : Float) :
    Alike layout known (first.assignVar bindings var op value)
      (second.assignVar bindings var op value) := by
  cases var with
  | host var =>
    constructor
    · rw [arena_assignVar_host, arena_assignVar_host, alike.arena]
    · rw [arena_assignVar_host, alike.laidOut]
    · intro other seen
      by_cases same : var = other
      · subst same
        rw [host?_assignVar_self, host?_assignVar_self, alike.host var seen]
      · rw [host?_assignVar_of_ne _ same, host?_assignVar_of_ne _ same, alike.host other seen]
  | named name symbol =>
    constructor
    · rw [arena_assignVar_named, arena_assignVar_named, alike.arena]
    · rw [arena_assignVar_named]
      split
      · rw [Arena.clear_update, alike.laidOut]
      · exact alike.laidOut
    · intro other seen
      rw [host?_assignVar_named, host?_assignVar_named, alike.host other seen]

/-- After a plain store it does not matter what the variable held before. -/
theorem host?_assignVar_set (first second : Context) (var : HostVar) (value : Float) :
    (first.assignVar bindings (.host var) .set value).host? var =
      (second.assignVar bindings (.host var) .set value).host? var := by
  have alike := isSome_host? first second var
  rw [host?_assignVar_self, host?_assignVar_self]
  cases one : first.host? var with
  | none =>
    cases other : second.host? var with
    | none => rfl
    | some value => simp [one, other] at alike
  | some old =>
    cases other : second.host? var with
    | none => simp [one, other] at alike
    | some older => rfl

/-- A store keeps contexts alike, and a plain one makes them agree on its target. -/
theorem Alike.settle (alike : Alike layout known first second) (var : Var) (op : AssignOp)
    (value : Float) :
    Alike layout
      (fun other => known other ∨ other ∈ if op = .set then Node.hostVar (.var var) else [])
      (first.assignVar bindings var op value) (second.assignVar bindings var op value) := by
  have kept : Alike layout known (first.assignVar bindings var op value)
      (second.assignVar bindings var op value) := alike.assignVar var op value
  refine ⟨kept.arena, kept.laidOut, fun other seen => ?_⟩
  rcases seen with old | target
  · exact kept.host other old
  · cases var with
    | host var =>
      by_cases plain : op = .set
      · subst plain
        obtain rfl : other = var := by simpa [Node.hostVar] using target
        exact host?_assignVar_set first second other value
      · simp [plain] at target
    | named name symbol => simp [Node.hostVar] at target

end Context

/-! ### Computations that take the same course -/

namespace Eval

variable {α β : Type} {layout : Arena} {before between after : HostVar → Prop}

/-- From contexts alike as far as known before, a computation gives the same value and leads to
contexts alike as far as known after. -/
def Carries (layout : Arena) (before after : HostVar → Prop) (computation : Eval α) : Prop :=
  ∀ first second, Context.Alike layout before first second →
    (computation first).1 = (computation second).1 ∧
      Context.Alike layout after (computation first).2 (computation second).2

theorem Carries.mono {computation : Eval α} (carries : Carries layout before between computation)
    (weaken : ∀ var, after var → between var) : Carries layout before after computation :=
  fun first second alike =>
    ⟨(carries first second alike).1, (carries first second alike).2.mono weaken⟩

theorem Carries.pure (value : α) (weaken : ∀ var, after var → before var) :
    Carries layout before after (Pure.pure value) :=
  fun _ _ alike => ⟨rfl, alike.mono weaken⟩

theorem Carries.bind {computation : Eval α} {next : α → Eval β}
    (carries : Carries layout before between computation)
    (carriesNext : ∀ value, Carries layout between after (next value)) :
    Carries layout before after (computation >>= next) := by
  intro first second alike
  obtain ⟨same, kept⟩ := carries first second alike
  have later := carriesNext (computation first).1 _ _ kept
  refine ⟨later.1.trans ?_, ?_⟩
  · rw [same]
    rfl
  · change Context.Alike layout after (next (computation first).1 (computation first).2).2
      (next (computation second).1 (computation second).2).2
    rw [← same]
    exact later.2

theorem Carries.get {view : Context → α}
    (same : ∀ first second, Context.Alike layout before first second → view first = view second)
    (weaken : ∀ var, after var → before var) :
    Carries layout before after (do return view (← MonadState.get)) :=
  fun first second alike => ⟨same first second alike, alike.mono weaken⟩

/-- A loop knows at the end what its condition and its body keep. -/
theorem Carries.loop {known : HostVar → Prop} {condition body : Eval Float}
    (carriesCondition : Carries layout known known condition)
    (carriesBody : Carries layout known known body) (rounds : Nat) (last : Float) :
    Carries layout known known (loop condition body rounds last) := by
  induction rounds generalizing last with
  | zero => exact .pure last fun _ => id
  | succ rounds ih =>
    refine carriesCondition.bind fun test => ?_
    split
    · exact carriesBody.bind fun value => ih value
    · exact .pure last fun _ => id

/-- A loop that may go round tests its condition first, and keeps what is known behind that. -/
theorem Carries.loop_of_pos {condition body : Eval Float}
    (carriesFirst : Carries layout before after condition)
    (carriesCondition : Carries layout after after condition)
    (carriesBody : Carries layout after after body) {rounds : Nat} (positive : 0 < rounds)
    (last : Float) : Carries layout before after (Eval.loop condition body rounds last) := by
  obtain ⟨rounds, rfl⟩ := Nat.exists_eq_add_one_of_ne_zero positive.ne'
  refine carriesFirst.bind fun test => ?_
  split
  · exact carriesBody.bind fun value => .loop carriesCondition carriesBody rounds value
  · exact .pure last fun _ => id

end Eval

/-! ### Trees -/

theorem covered_behind {known : HostVar → Prop} {settled exposed : List HostVar}
    (covered : ∀ var ∈ behind settled exposed, known var) :
    ∀ var ∈ exposed, known var ∨ var ∈ settled := by
  intro var member
  by_cases inside : var ∈ settled
  · exact .inr inside
  · exact .inl (covered var (by simp [behind, member, inside]))

variable {layout : Arena}

mutual

/-- A tree takes the same course in contexts that agree on what it reads as found, and makes them
agree on what it settles. -/
theorem eval_carries (node : Node) {known : HostVar → Prop}
    (covered : ∀ var ∈ node.exposes, known var) :
    Eval.Carries layout known (fun var => known var ∨ var ∈ node.settles)
      (eval bindings node) := by
  cases node with
  | number value => exact .pure value (by simp)
  | string text => exact .pure 0.0 (by simp)
  | var var =>
    exact .get (fun first second alike => alike.readVar covered) (by simp)
  | assign op target value =>
    refine (eval_carries value covered).bind fun stored => ?_
    cases target with
    | var var =>
      intro first second alike
      refine ⟨rfl, (alike.settle var op stored).mono fun other => ?_⟩
      simp [or_assoc]
    | _ => exact .pure 0.0 (by simp [Node.hostVar])
  | binary op left right =>
    simp only [Node.exposes, List.mem_append] at covered
    refine (eval_carries left fun var member => covered var (.inl member)).bind
      fun leftValue => ?_
    refine (eval_carries right
      (covered_behind fun var member => covered var (.inr member))).bind fun rightValue => ?_
    exact .pure _ (by simp [or_assoc])
  | unary op operand => exact (eval_carries operand covered).bind fun value => .pure _ fun _ => id
  | call name function arguments =>
    refine (evalArguments_carries arguments covered).bind fun values => ?_
    split
    · exact .pure _ fun _ => id
    · exact .pure 0.0 fun _ => id
  | element name index =>
    refine (eval_carries index covered).bind fun value => ?_
    exact .get (fun first second alike => alike.readElement name value) fun _ => id
  | ifThen condition thenBranch =>
    simp only [Node.exposes, List.mem_append] at covered
    refine (eval_carries condition fun var member => covered var (.inl member)).bind
      fun test => ?_
    split
    · exact (eval_carries thenBranch
        (covered_behind fun var member => covered var (.inr member))).mono fun var => .inl
    · exact .pure 0.0 fun _ => id
  | ifThenElse condition thenBranch elseBranch =>
    simp only [Node.exposes, List.mem_append] at covered
    have branches := covered_behind fun var member => covered var (.inr member)
    simp only [List.mem_append] at branches
    refine (eval_carries condition fun var member => covered var (.inl member)).bind
      fun test => ?_
    split
    · refine (eval_carries thenBranch fun var member => branches var (.inl member)).mono
        fun var settled => ?_
      simp only [Node.settles, List.mem_append, List.mem_filter] at settled
      rcases settled with old | inCondition | inBoth
      · exact .inl (.inl old)
      · exact .inl (.inr inCondition)
      · exact .inr inBoth.1
    · refine (eval_carries elseBranch fun var member => branches var (.inr member)).mono
        fun var settled => ?_
      simp only [Node.settles, List.mem_append, List.mem_filter, decide_eq_true_eq] at settled
      rcases settled with old | inCondition | inBoth
      · exact .inl (.inl old)
      · exact .inl (.inr inCondition)
      · exact .inr inBoth.2
  | whileLoop condition body =>
    simp only [Node.exposes, List.mem_append] at covered
    have inCondition (var : HostVar) (member : var ∈ condition.exposes) : known var :=
      covered var (.inl member)
    have carriesBody := eval_carries body
      (covered_behind fun var member => covered var (.inr member))
    -- From the second test on, what the condition settles is known before it as well.
    have carriesAgain :
        Eval.Carries layout (fun var => known var ∨ var ∈ condition.settles)
          (fun var => known var ∨ var ∈ condition.settles) (eval bindings condition) :=
      (eval_carries condition fun var member => .inl (inCondition var member)).mono fun var => .inl
    exact .loop_of_pos (eval_carries condition inCondition) carriesAgain
      (carriesBody.mono fun var => .inl) (by decide) 0.0
  | block body => exact evalAll_carries 0.0 body covered
  | sectionOf name body => exact evalAll_carries 0.0 body covered

theorem evalAll_carries (last : Float) (nodes : List Node) {known : HostVar → Prop}
    (covered : ∀ var ∈ exposesAll nodes, known var) :
    Eval.Carries layout known (fun var => known var ∨ var ∈ settlesAll nodes)
      (evalAll bindings last nodes) := by
  cases nodes with
  | nil => exact .pure last (by simp)
  | cons node rest =>
    simp only [exposesAll, List.mem_append] at covered
    refine (eval_carries node fun var member => covered var (.inl member)).bind fun value => ?_
    refine (evalAll_carries value rest
      (covered_behind fun var member => covered var (.inr member))).mono fun var => ?_
    simp [or_assoc]

theorem evalArguments_carries (nodes : List Node) {known : HostVar → Prop}
    (covered : ∀ var ∈ exposesAll nodes, known var) :
    Eval.Carries layout known (fun var => known var ∨ var ∈ settlesAll nodes)
      (evalArguments bindings nodes) := by
  cases nodes with
  | nil => exact .pure [] (by simp)
  | cons node rest =>
    simp only [exposesAll, List.mem_append] at covered
    refine (eval_carries node fun var member => covered var (.inl member)).bind fun value => ?_
    refine (evalArguments_carries rest
      (covered_behind fun var member => covered var (.inr member))).bind fun values => ?_
    exact .pure _ (by simp [or_assoc])

end

end Machine

end EffectScript
