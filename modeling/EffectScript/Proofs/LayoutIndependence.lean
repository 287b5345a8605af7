import EffectScript.Proofs.ExposedReads
import EffectScript.Proofs.NameCells

/-!
# Evaluation in different layouts

Where the variables of a script lie in its arena, and under which numbers its tree names them, is
decided by all the names of the script.  Evaluation does not depend on either: in two contexts in
which every variable of a tree has a cell and a host sees the same values, the tree gives the same
value, and a host sees the same values afterwards.
-/

namespace EffectScript

namespace Language

/-! ### Trees up to numbers -/

/-- A mention without its number. -/
def Mention.unnumbered : Mention → Mention
  | .symbol name _ => .symbol name 0
  | .function name _ => .function name 0
  | .host var => .host var
  | .marker name => .marker name

theorem Var.mention_unnumbered (var : Var) : var.unnumbered.mention = var.mention.unnumbered := by
  cases var <;> rfl

mutual

theorem Node.mentions_unnumbered (node : Node) :
    node.unnumbered.mentions = node.mentions.map Mention.unnumbered := by
  cases node with
  | number value => rfl
  | string text => rfl
  | var var => simp [var.mention_unnumbered]
  | assign op target value => simp [target.mentions_unnumbered, value.mentions_unnumbered]
  | binary op left right => simp [left.mentions_unnumbered, right.mentions_unnumbered]
  | unary op operand => simp [operand.mentions_unnumbered]
  | call name function arguments =>
    simp [mentionsAll_unnumberedAll arguments, Mention.unnumbered]
  | element name index => simp [index.mentions_unnumbered]
  | ifThen condition thenBranch =>
    simp [condition.mentions_unnumbered, thenBranch.mentions_unnumbered]
  | ifThenElse condition thenBranch elseBranch =>
    simp [condition.mentions_unnumbered, thenBranch.mentions_unnumbered,
      elseBranch.mentions_unnumbered]
  | whileLoop condition body => simp [condition.mentions_unnumbered, body.mentions_unnumbered]
  | block body => simp [mentionsAll_unnumberedAll body]
  | sectionOf name body => simp [mentionsAll_unnumberedAll body, Mention.unnumbered]

theorem mentionsAll_unnumberedAll (nodes : List Node) :
    mentionsAll (unnumberedAll nodes) = (mentionsAll nodes).map Mention.unnumbered := by
  cases nodes with
  | nil => rfl
  | cons node rest => simp [node.mentions_unnumbered, mentionsAll_unnumberedAll rest]

end

/-- A variable that a tree names is named by the tree without numbers. -/
theorem exists_symbol_of_unnumberedAll {nodes : List Node} {name : String} {number : Nat}
    (mentioned : .symbol name number ∈ mentionsAll (unnumberedAll nodes)) :
    ∃ symbol, .symbol name symbol ∈ mentionsAll nodes := by
  rw [mentionsAll_unnumberedAll] at mentioned
  obtain ⟨mention, member, same⟩ := List.mem_map.1 mentioned
  cases mention with
  | symbol other symbol =>
    obtain ⟨rfl, _⟩ := Mention.symbol.inj same
    exact ⟨symbol, member⟩
  | host var => cases same
  | function other number => cases same
  | marker other => cases same

end Language

open EffectScript.Language

namespace Machine

/-! ### Evaluation by name knows no numbers -/

namespace ByName

theorem readVar_unnumbered (context : Context) (var : Var) :
    readVar context var.unnumbered = readVar context var := by
  cases var <;> rfl

theorem assignVar_unnumbered (context : Context) (var : Var) (op : AssignOp) (value : Float) :
    assignVar context var.unnumbered op value = assignVar context var op value := by
  cases var <;> rfl

mutual

theorem eval_unnumbered (node : Node) : eval node.unnumbered = eval node := by
  cases node with
  | number value => rfl
  | string text => rfl
  | var var => simp [eval, readVar_unnumbered]
  | assign op target value =>
    rw [Node.unnumbered, eval, eval, eval_unnumbered value]
    cases target with
    | var var => simp [assignVar_unnumbered]
    | _ => rfl
  | binary op left right =>
    rw [Node.unnumbered, eval, eval, eval_unnumbered left, eval_unnumbered right]
  | unary op operand => rw [Node.unnumbered, eval, eval, eval_unnumbered operand]
  | call name function arguments =>
    rw [Node.unnumbered, eval, eval, evalArguments_unnumberedAll arguments]
  | element name index => rw [Node.unnumbered, eval, eval, eval_unnumbered index]
  | ifThen condition thenBranch =>
    rw [Node.unnumbered, eval, eval, eval_unnumbered condition, eval_unnumbered thenBranch]
  | ifThenElse condition thenBranch elseBranch =>
    rw [Node.unnumbered, eval, eval, eval_unnumbered condition, eval_unnumbered thenBranch,
      eval_unnumbered elseBranch]
  | whileLoop condition body =>
    rw [Node.unnumbered, eval, eval, eval_unnumbered condition, eval_unnumbered body]
  | block body => rw [Node.unnumbered, eval, eval, evalAll_unnumberedAll 0.0 body]
  | sectionOf name body => rw [Node.unnumbered, eval, eval, evalAll_unnumberedAll 0.0 body]

theorem evalAll_unnumberedAll (last : Float) (nodes : List Node) :
    evalAll last (unnumberedAll nodes) = evalAll last nodes := by
  cases nodes with
  | nil => rfl
  | cons node rest =>
    rw [unnumberedAll, evalAll, evalAll, eval_unnumbered node]
    exact congrArg _ (funext fun value => evalAll_unnumberedAll value rest)

theorem evalArguments_unnumberedAll (nodes : List Node) :
    evalArguments (unnumberedAll nodes) = evalArguments nodes := by
  cases nodes with
  | nil => rfl
  | cons node rest =>
    rw [unnumberedAll, evalArguments, evalArguments, eval_unnumbered node,
      evalArguments_unnumberedAll rest]

end

end ByName

/-! ### Arenas that house names -/

namespace Arena

/-- An arena without arrays in which each of some names has a cell of its own. -/
structure Houses (names : String → Prop) (arena : Arena) : Prop where
  separated : arena.Separated
  bound {name : String} : names name → ∃ address, arena.address? name = some address
  region?_eq (name : String) : arena.region? name = none

variable {names : String → Prop} {arena : Arena}

/-- Which names are housed is a matter of the layout. -/
theorem Houses.withCells (houses : arena.Houses names) (cells : Vector Float arenaSize) :
    Houses names { arena with cells } :=
  ⟨houses.separated.change (.keep cells), houses.bound, houses.region?_eq⟩

theorem Separated.get_set (separated : arena.Separated) {name : String} {address : Nat}
    (bound : arena.address? name = some address) (value : Float) (other : String) :
    (arena.set name value).value.get other = if other = name then value else arena.get other := by
  rw [set_of_bound bound]
  have inside := separated.address_lt_arenaSize bound
  have addresses (name : String) :
      (arena.write address value).address? name = arena.address? name := rfl
  by_cases same : other = name
  · subst same
    rw [get_of_bound ((addresses other).trans bound), if_pos rfl]
    simp [read, write, inside]
  · rw [if_neg same]
    cases found : arena.address? other with
    | none => rw [get_of_unbound found, get_of_unbound ((addresses other).trans found)]
    | some place =>
      have apart : address ≠ place := by
        rintro rfl
        exact same (separated.address_injective found bound)
      rw [get_of_bound found, get_of_bound ((addresses other).trans found)]
      simp [read, write, apart]

theorem Houses.set (houses : arena.Houses names) {name : String} (housed : names name)
    (value : Float) : (arena.set name value).value.Houses names := by
  obtain ⟨address, bound⟩ := houses.bound housed
  rw [set_of_bound bound]
  exact houses.withCells _

theorem get_clear (arena : Arena) (name : String) : arena.clear.get name = 0.0 := by
  unfold get
  split
  · rename_i address _
    by_cases inside : address < arenaSize <;> simp [read, clear, zeroCells, inside]
  · rfl

end Arena

/-! ### Contexts that look alike -/

namespace Context

/-- A host sees no difference between two contexts: all its own variables and all variables of the
script have the same values. -/
structure SeenAlike (first second : Context) : Prop where
  host_eq (var : HostVar) : first.host? var = second.host? var
  get_eq (name : String) : first.arena.get name = second.arena.get name

/-- Two contexts look alike, and the arenas of both house some names. -/
structure Beside (names : String → Prop) (first second : Context) : Prop where
  seen : SeenAlike first second
  houses : first.arena.Houses names
  housesOther : second.arena.Houses names

namespace Beside

variable {names : String → Prop} {first second : Context} (beside : Beside names first second)
include beside

theorem setHost (var : HostVar) (value : Float) :
    Beside names (first.setHost var value) (second.setHost var value) := by
  refine ⟨⟨fun other => ?_, fun name => ?_⟩, ?_, ?_⟩
  · by_cases same : var = other
    · subst same
      rw [host?_setHost_self, host?_setHost_self, beside.seen.host_eq]
    · rw [host?_setHost_of_ne _ same, host?_setHost_of_ne _ same, beside.seen.host_eq]
  · rw [arena_setHost, arena_setHost, beside.seen.get_eq]
  · rw [arena_setHost]
    exact beside.houses
  · rw [arena_setHost]
    exact beside.housesOther

theorem clear :
    Beside names { first with arena := first.arena.clear }
      { second with arena := second.arena.clear } := by
  refine ⟨⟨fun var => ?_, fun name => ?_⟩, beside.houses.withCells _,
    beside.housesOther.withCells _⟩
  · exact (by cases var <;> rfl : _ = first.host? var).trans
      ((beside.seen.host_eq var).trans (by cases var <;> rfl))
  · rw [Arena.get_clear, Arena.get_clear]

theorem readVar (var : Var) : ByName.readVar first var = ByName.readVar second var := by
  cases var with
  | host var => rw [ByName.readVar, ByName.readVar, beside.seen.host_eq]
  | named name symbol => exact beside.seen.get_eq name

/-- No array is declared, so every element reads as zero. -/
theorem readElement (name : String) (index : Float) :
    first.readElement name index = second.readElement name index := by
  simp [Context.readElement, Arena.elementAddress?, beside.houses.region?_eq,
    beside.housesOther.region?_eq]

theorem setVariable {name : String} (housed : names name) (value : Float) :
    Beside names { first with arena := (first.arena.set name value).value }
      { second with arena := (second.arena.set name value).value } := by
  obtain ⟨address, bound⟩ := beside.houses.bound housed
  obtain ⟨otherAddress, otherBound⟩ := beside.housesOther.bound housed
  refine ⟨⟨fun var => ?_, fun other => ?_⟩, beside.houses.set housed value,
    beside.housesOther.set housed value⟩
  · exact (by cases var <;> rfl : _ = first.host? var).trans
      ((beside.seen.host_eq var).trans (by cases var <;> rfl))
  · rw [beside.houses.separated.get_set bound, beside.housesOther.separated.get_set otherBound,
      beside.seen.get_eq]

theorem assignVar {var : Var} (housed : ∀ name symbol, var = .named name symbol → names name)
    (op : AssignOp) (value : Float) :
    Beside names (ByName.assignVar first var op value) (ByName.assignVar second var op value) := by
  cases var with
  | host var =>
    rw [ByName.assignVar, ByName.assignVar, beside.seen.host_eq]
    split
    · exact beside.setHost var _
    · exact beside
  | named name symbol =>
    rw [ByName.assignVar, ByName.assignVar, beside.seen.get_eq]
    exact beside.setVariable (housed name symbol rfl) _

end Beside

end Context

/-! ### Computations on contexts that look alike -/

namespace Eval

variable {α β : Type} {relation : Context → Context → Prop}

/-- A computation gives the same value in related contexts, and leaves related contexts. -/
def Respects (relation : Context → Context → Prop) (computation : Eval α) : Prop :=
  ∀ first second, relation first second →
    (computation first).1 = (computation second).1 ∧
      relation (computation first).2 (computation second).2

theorem Respects.pure (value : α) : Respects relation (Pure.pure value) :=
  fun _ _ related => ⟨rfl, related⟩

theorem Respects.bind {computation : Eval α} {next : α → Eval β}
    (respects : Respects relation computation)
    (respectsNext : ∀ value, Respects relation (next value)) :
    Respects relation (computation >>= next) := by
  intro first second related
  obtain ⟨same, kept⟩ := respects first second related
  have later := respectsNext (computation first).1 _ _ kept
  change (next (computation first).1 (computation first).2).1 =
      (next (computation second).1 (computation second).2).1 ∧
    relation (next (computation first).1 (computation first).2).2
      (next (computation second).1 (computation second).2).2
  rw [← same]
  exact later

theorem Respects.get {view : Context → α}
    (same : ∀ first second, relation first second → view first = view second) :
    Respects relation (do return view (← MonadState.get)) :=
  fun first second related => ⟨same first second related, related⟩

theorem Respects.loop {condition body : Eval Float}
    (respectsCondition : Respects relation condition) (respectsBody : Respects relation body)
    (rounds : Nat) (last : Float) :
    Respects relation (loop condition body rounds last) := by
  induction rounds generalizing last with
  | zero => exact .pure last
  | succ rounds ih =>
    refine respectsCondition.bind fun test => ?_
    split
    · exact respectsBody.bind fun value => ih value
    · exact .pure last

end Eval

namespace ByName

variable {names : String → Prop}

mutual

/-- A tree whose variables are housed does the same in contexts that look alike. -/
theorem eval_respects (node : Node)
    (housed : ∀ name symbol, .symbol name symbol ∈ node.mentions → names name) :
    (eval node).Respects (Context.Beside names) := by
  cases node with
  | number value => exact .pure value
  | string text => exact .pure 0.0
  | var var => exact .get fun first second beside => beside.readVar var
  | assign op target value =>
    simp only [Node.mentions, List.mem_append] at housed
    refine (eval_respects value fun name symbol member =>
      housed name symbol (.inr member)).bind fun stored => ?_
    cases target with
    | var var =>
      refine fun first second beside =>
        ⟨rfl, beside.assignVar (fun name symbol same => ?_) op stored⟩
      exact housed name symbol (.inl (by simp [same, Var.mention]))
    | _ => exact .pure 0.0
  | binary op left right =>
    simp only [Node.mentions, List.mem_append] at housed
    refine (eval_respects left fun name symbol member =>
      housed name symbol (.inl member)).bind fun leftValue => ?_
    exact (eval_respects right fun name symbol member =>
      housed name symbol (.inr member)).bind fun rightValue => .pure _
  | unary op operand => exact (eval_respects operand housed).bind fun value => .pure _
  | call name function arguments =>
    simp only [Node.mentions, List.mem_append] at housed
    exact (evalArguments_respects arguments fun name symbol member =>
      housed name symbol (.inl member)).bind fun values => .pure _
  | element name index =>
    exact (eval_respects index housed).bind fun value =>
      .get fun first second beside => beside.readElement name value
  | ifThen condition thenBranch =>
    simp only [Node.mentions, List.mem_append] at housed
    refine (eval_respects condition fun name symbol member =>
      housed name symbol (.inl member)).bind fun test => ?_
    split
    · exact eval_respects thenBranch fun name symbol member => housed name symbol (.inr member)
    · exact .pure 0.0
  | ifThenElse condition thenBranch elseBranch =>
    simp only [Node.mentions, List.mem_append] at housed
    refine (eval_respects condition fun name symbol member =>
      housed name symbol (.inl (.inl member))).bind fun test => ?_
    split
    · exact eval_respects thenBranch fun name symbol member =>
        housed name symbol (.inl (.inr member))
    · exact eval_respects elseBranch fun name symbol member => housed name symbol (.inr member)
  | whileLoop condition body =>
    simp only [Node.mentions, List.mem_append] at housed
    exact .loop
      (eval_respects condition fun name symbol member => housed name symbol (.inl member))
      (eval_respects body fun name symbol member => housed name symbol (.inr member)) loopLimit 0.0
  | block body => exact evalAll_respects 0.0 body housed
  | sectionOf name body =>
    exact evalAll_respects 0.0 body fun name symbol member =>
      housed name symbol (List.mem_cons_of_mem _ member)

theorem evalAll_respects (last : Float) (nodes : List Node)
    (housed : ∀ name symbol, .symbol name symbol ∈ mentionsAll nodes → names name) :
    (evalAll last nodes).Respects (Context.Beside names) := by
  cases nodes with
  | nil => exact .pure last
  | cons node rest =>
    simp only [mentionsAll, List.mem_append] at housed
    refine (eval_respects node fun name symbol member =>
      housed name symbol (.inl member)).bind fun value => ?_
    exact evalAll_respects value rest fun name symbol member => housed name symbol (.inr member)

theorem evalArguments_respects (nodes : List Node)
    (housed : ∀ name symbol, .symbol name symbol ∈ mentionsAll nodes → names name) :
    (evalArguments nodes).Respects (Context.Beside names) := by
  cases nodes with
  | nil => exact .pure []
  | cons node rest =>
    simp only [mentionsAll, List.mem_append] at housed
    refine (eval_respects node fun name symbol member =>
      housed name symbol (.inl member)).bind fun value => ?_
    exact (evalArguments_respects rest fun name symbol member =>
      housed name symbol (.inr member)).bind fun values => .pure _

end

end ByName

end Machine

end EffectScript
