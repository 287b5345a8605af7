import EffectScript.Proofs.ArenaLayout

/-!
# An arena is a faithful store

As long as only cells that are taken are written, the cells that are not taken hold zero.  So new
names and new arrays read as zero, also where an array has moved away from cells that are never
given back.  Setting a name changes what that name holds and nothing else, and an operation that
cannot be carried out leaves the arena as it was.
-/

namespace EffectScript.Machine

namespace Arena

/-! ### Cells -/

theorem read_eq_of_cells {first second : Arena} (same : first.cells = second.cells)
    (address : Nat) : first.read address = second.read address := by
  rw [read, read, same]

theorem read_zeroCells {arena : Arena} (zeroed : arena.cells = zeroCells) (address : Nat) :
    arena.read address = 0.0 := by
  rw [read, zeroed, zeroCells, Vector.getElem?_replicate]
  split <;> rfl

theorem read_of_le {address : Nat} (outside : arenaSize ≤ address) (arena : Arena) :
    arena.read address = 0.0 := by
  rw [read, Vector.getElem?_eq_none outside]
  rfl

/-- A cell holds what was written to it last. -/
theorem read_write {address : Nat} (inside : address < arenaSize) (arena : Arena) (value : Float)
    (other : Nat) :
    (arena.write address value).read other =
      if address = other then value else arena.read other := by
  simp only [read, write]
  by_cases same : address = other
  · subst same
    rw [if_pos rfl, Vector.getElem?_setIfInBounds_self_of_lt inside]
    rfl
  · rw [if_neg same, Vector.getElem?_setIfInBounds_ne same]

/-- What is written outside the arena is lost. -/
theorem write_of_le {address : Nat} (outside : arenaSize ≤ address) (arena : Arena)
    (value : Float) : arena.write address value = arena := by
  rw [write, Vector.setIfInBounds_eq_of_size_le outside]

@[simp]
theorem address?_write (arena : Arena) (address : Nat) (value : Float) :
    (arena.write address value).address? = arena.address? := rfl

/-! ### Taking cells -/

theorem cells_bind (arena : Arena) (name : String) :
    (arena.bind name).value.2.cells = arena.cells := by
  rcases arena.bind_cases name with ⟨_, _, outcome⟩ | ⟨_, _, outcome⟩ | ⟨_, _, outcome⟩ <;>
    rw [outcome]

theorem region?_bind (arena : Arena) (name : String) :
    (arena.bind name).value.2.region? = arena.region? := by
  rcases arena.bind_cases name with ⟨_, _, outcome⟩ | ⟨_, _, outcome⟩ | ⟨_, _, outcome⟩ <;>
    rw [outcome]
  rfl

/-- Binding a name gives the address that it has from then on, and moves no other name. -/
theorem address?_bind (arena : Arena) (name other : String) :
    (arena.bind name).value.2.address? other =
      if other = name then (arena.bind name).value.1 else arena.address? other := by
  rcases arena.bind_cases name with ⟨address, bound, outcome⟩ | ⟨unbound, _, outcome⟩ |
    ⟨unbound, _, outcome⟩ <;> rw [outcome]
  · split
    · rename_i same
      rw [same, bound]
    · rfl
  · split
    · rename_i same
      rw [same, unbound]
    · rfl
  · rw [address?_mk_insert]
    simp only [eq_comm (a := name)]
    rfl

/-- An array that is large enough stays, one that does not fit is refused, and any other gets the
next cells. -/
theorem allocate_cases (arena : Arena) (name : String) (size : Nat) :
    (∃ base, arena.fittingBase? name size = some base ∧
      (arena.allocate name size).value = (some base, arena)) ∨
    (arena.fittingBase? name size = none ∧ arenaSize < arena.nextFree + size ∧
      (arena.allocate name size).value = (none, arena)) ∨
    (arena.fittingBase? name size = none ∧ arena.nextFree + size ≤ arenaSize ∧
      (arena.allocate name size).value =
        (some arena.nextFree,
          { arena with
            arrays := arena.arrays.insert name ⟨arena.nextFree, size⟩
            nextFree := arena.nextFree + size })) := by
  rw [allocate]
  cases fitting : arena.fittingBase? name size with
  | some base => exact .inl ⟨base, rfl, rfl⟩
  | none =>
    have arena_le : arenaSize ≤ largestEnd := by decide
    by_cases uncountable : largestEnd < arena.nextFree + size
    · exact .inr (.inl ⟨rfl, Nat.lt_of_le_of_lt arena_le uncountable, by simp [uncountable]⟩)
    · by_cases tooLarge : arenaSize < arena.nextFree + size
      · exact .inr (.inl ⟨rfl, tooLarge, by simp [uncountable, tooLarge]⟩)
      · exact .inr (.inr ⟨rfl, Nat.le_of_not_lt tooLarge, by simp [uncountable, tooLarge]⟩)

theorem cells_allocate (arena : Arena) (name : String) (size : Nat) :
    (arena.allocate name size).value.2.cells = arena.cells := by
  rcases arena.allocate_cases name size with ⟨_, _, outcome⟩ | ⟨_, _, outcome⟩ |
    ⟨_, _, outcome⟩ <;> rw [outcome]

theorem get_eq (arena : Arena) (name : String) :
    arena.get name = ((arena.address? name).map arena.read).getD 0.0 := by
  rw [get]
  cases arena.address? name <;> rfl

/-- What is refused leaves the arena as it was. -/
theorem bind_refused (arena : Arena) {name : String} (refused : (arena.bind name).value.1 = none) :
    (arena.bind name).value.2 = arena := by
  rcases arena.bind_cases name with ⟨_, _, outcome⟩ | ⟨_, _, outcome⟩ | ⟨_, _, outcome⟩ <;>
    rw [outcome] at refused ⊢
  contradiction

theorem allocate_refused (arena : Arena) {name : String} {size : Nat}
    (refused : (arena.allocate name size).value.1 = none) :
    (arena.allocate name size).value.2 = arena := by
  rcases arena.allocate_cases name size with ⟨_, _, outcome⟩ | ⟨_, _, outcome⟩ |
    ⟨_, _, outcome⟩ <;> rw [outcome] at refused ⊢
  contradiction

theorem Separated.bind_eq_none {arena : Arena} (separated : arena.Separated) (name : String) :
    (arena.bind name).value.1 = none ↔ arena.address? name = none ∧ arena.nextFree = arenaSize := by
  have upTo := separated.nextFree_le
  rcases arena.bind_cases name with ⟨_, bound, outcome⟩ | ⟨unbound, full, outcome⟩ |
    ⟨_, room, outcome⟩ <;> rw [outcome]
  · simp [bound]
  · simp [unbound, Nat.le_antisymm upTo full]
  · simp [Nat.ne_of_lt room]

theorem allocate_eq_none (arena : Arena) (name : String) (size : Nat) :
    (arena.allocate name size).value.1 = none ↔
      arena.fittingBase? name size = none ∧ arenaSize < arena.nextFree + size := by
  rcases arena.allocate_cases name size with ⟨_, fitting, outcome⟩ | ⟨moves, tooLarge, outcome⟩ |
    ⟨_, room, outcome⟩ <;> rw [outcome]
  · simp [fitting]
  · simp [moves, tooLarge]
  · simp [Nat.not_lt_of_le room]

/-! ### Reachable arenas -/

/-- An operation writes only to a cell that is taken, or to no cell at all. -/
def Operation.Respects (arena : Arena) : Operation → Prop
  | .write address _ => address < arena.nextFree ∨ arenaSize ≤ address
  | .update address _ => address < arena.nextFree ∨ arenaSize ≤ address
  | _ => True

/-- The arenas that operations make of the empty one, if free cells are not written. -/
inductive Reachable : Arena → Prop
  | empty : Reachable empty
  | step {arena : Arena} (operation : Operation) :
    Reachable arena → operation.Respects arena → Reachable (arena.apply operation)

/-- Occupants are apart, and cells that are not taken hold zero. -/
structure Blank (arena : Arena) : Prop where
  separated : arena.Separated
  read_eq {address : Nat} : arena.nextFree ≤ address → arena.read address = 0.0

namespace Blank

variable {arena : Arena} (blank : arena.Blank)
include blank

/-- Taking cells changes none. -/
theorem of_cells {after : Arena} (separated : after.Separated) (same : after.cells = arena.cells)
    (further : arena.nextFree ≤ after.nextFree) : after.Blank where
  separated := separated
  read_eq free := by
    rw [read_eq_of_cells same]
    exact blank.read_eq (Nat.le_trans further free)

/-- Writing to a cell that is taken leaves the others blank. -/
theorem write {address : Nat} (respects : address < arena.nextFree ∨ arenaSize ≤ address)
    (value : Float) : (arena.write address value).Blank := by
  rcases respects with taken | outside
  · refine ⟨blank.separated.change (arena.change_write address value), fun {other} free => ?_⟩
    have inside : address < arenaSize := Nat.lt_of_lt_of_le taken blank.separated.nextFree_le
    have different : address ≠ other := Nat.ne_of_lt (Nat.lt_of_lt_of_le taken free)
    rw [read_write inside, if_neg different]
    exact blank.read_eq free
  · rw [write_of_le outside]
    exact blank

end Blank

theorem blank_empty : Blank empty where
  separated := separated_empty
  read_eq _ := read_zeroCells rfl _

theorem Blank.bind {arena : Arena} (blank : arena.Blank) (name : String) :
    (arena.bind name).value.2.Blank := by
  have separated := blank.separated.change (arena.change_bind name)
  have extended := Extends.ofChange (arena.change_bind name)
  exact blank.of_cells separated (arena.cells_bind name) extended.nextFree_le

/-- Setting a name writes to a cell that is taken by then. -/
theorem Blank.set {arena : Arena} (blank : arena.Blank) (name : String) (value : Float) :
    (arena.set name value).value.Blank := by
  have bound := blank.bind name
  rw [set_value]
  rcases outcome : (arena.bind name).value with ⟨_ | address, after⟩
  · rw [outcome] at bound
    exact bound
  · have taken := arena.address?_bind name name
    rw [if_pos rfl, outcome] at taken
    rw [outcome] at bound
    exact bound.write (.inl (bound.separated.address_lt taken)) value

/-- Every operation that respects free cells leaves them blank. -/
theorem Blank.apply {arena : Arena} (blank : arena.Blank) {operation : Operation}
    (respects : operation.Respects arena) : (arena.apply operation).Blank := by
  cases operation with
  | bind name => exact blank.bind name
  | allocate name size =>
    have change := arena.change_allocate name size
    exact blank.of_cells (blank.separated.change change) (arena.cells_allocate name size)
      (Extends.ofChange change).nextFree_le
  | set name value => exact blank.set name value
  | write address value => exact blank.write respects value
  | update address change => exact blank.write respects _
  | clear => exact ⟨blank.separated.change (.keep zeroCells), fun _ => read_zeroCells rfl _⟩
  | reset => exact blank_empty

theorem Reachable.blank {arena : Arena} (reached : arena.Reachable) : arena.Blank := by
  induction reached with
  | empty => exact blank_empty
  | step operation _ respects ih => exact ih.apply respects

/-! ### Setting and getting -/

theorem address?_set (arena : Arena) (name : String) (value : Float) :
    (arena.set name value).value.address? = (arena.bind name).value.2.address? := by
  rw [set_value]
  rcases (arena.bind name).value with ⟨_ | _, after⟩ <;> rfl

theorem region?_set (arena : Arena) (name : String) (value : Float) :
    (arena.set name value).value.region? = arena.region? := by
  rw [set_value, ← arena.region?_bind name]
  rcases (arena.bind name).value with ⟨_ | _, after⟩ <;> rfl

section Separated

variable {arena : Arena} (separated : arena.Separated)
include separated

/-- Setting a name changes the cell that the name has, if it has one, and no other. -/
theorem Separated.read_set (name : String) (value : Float) (address : Nat) :
    (arena.set name value).value.read address =
      if (arena.bind name).value.1 = some address then value else arena.read address := by
  have same := read_eq_of_cells (arena.cells_bind name)
  rw [set_value]
  rcases outcome : (arena.bind name).value with ⟨_ | given, after⟩
  · rw [outcome] at same
    simpa using same address
  · have inside : given < arenaSize := separated.bind_lt_arenaSize (congrArg Prod.fst outcome)
    rw [outcome] at same
    rw [read_write inside, same]
    simp only [Option.some.injEq]

/-- The address that a name gets belongs to no other name. -/
theorem Separated.bind_ne {name other : String} {address : Nat} (different : other ≠ name)
    (bound : arena.address? other = some address) :
    (arena.bind name).value.1 ≠ some address := by
  rcases arena.bind_cases name with ⟨own, boundName, outcome⟩ | ⟨_, _, outcome⟩ |
    ⟨_, _, outcome⟩ <;> rw [outcome]
  · intro same
    obtain rfl := Option.some.inj same
    exact different (separated.address_injective bound boundName)
  · simp
  · intro same
    obtain rfl := Option.some.inj same
    exact absurd (separated.address_lt bound) (Nat.lt_irrefl _)

/-- The address that a name gets belongs to no array. -/
theorem Separated.bind_not_in_region {name array : String} {address : Nat} {region : Region}
    (declared : arena.region? array = some region) (inside : region.Contains address) :
    (arena.bind name).value.1 ≠ some address := by
  rcases arena.bind_cases name with ⟨own, bound, outcome⟩ | ⟨_, _, outcome⟩ |
    ⟨_, _, outcome⟩ <;> rw [outcome]
  · intro same
    obtain rfl := Option.some.inj same
    exact separated.address_not_in_region bound declared inside
  · simp
  · intro same
    obtain rfl := Option.some.inj same
    exact absurd inside.2 (Nat.not_lt_of_le (separated.region_le declared))

/-- A name that can be bound holds what it was set to, and every other name what it held. -/
theorem Separated.get_set_eq (name : String) (value : Float) (other : String) :
    (arena.set name value).value.get other =
      if other = name ∧ (arena.bind name).value.1.isSome = true then value
      else arena.get other := by
  rw [get_eq, get_eq, address?_set, address?_bind]
  by_cases same : other = name
  · subst same
    rw [if_pos rfl]
    rcases arena.bind_cases other with ⟨address, bound, outcome⟩ | ⟨unbound, _, outcome⟩ |
      ⟨_, _, outcome⟩
    · simp [separated.read_set, outcome]
    · simp [unbound, outcome]
    · simp [separated.read_set, outcome]
  · rw [if_neg same, if_neg fun both => same both.1]
    cases bound : arena.address? other with
    | none => rfl
    | some address => simp [separated.read_set, separated.bind_ne same bound]

end Separated

/-! ### New occupants -/

/-- An array whose cells change has taken free ones. -/
theorem Blank.read_of_new_region {arena : Arena} (blank : arena.Blank) {name array : String}
    {size address : Nat} {region : Region}
    (declared : (arena.allocate name size).value.2.region? array = some region)
    (new : arena.region? array ≠ some region) (inside : region.Contains address) :
    (arena.allocate name size).value.2.read address = 0.0 := by
  rw [read_eq_of_cells (arena.cells_allocate name size)]
  rcases arena.allocate_cases name size with ⟨_, _, outcome⟩ | ⟨_, _, outcome⟩ | ⟨_, _, outcome⟩ <;>
    rw [outcome] at declared
  · exact absurd declared new
  · exact absurd declared new
  · rw [region?_mk_insert] at declared
    split at declared
    · obtain rfl := Option.some.inj declared
      exact blank.read_eq inside.1
    · exact absurd declared new

theorem Blank.get_bind {arena : Arena} (blank : arena.Blank) {name : String}
    (unbound : arena.address? name = none) : (arena.bind name).value.2.get name = 0.0 := by
  rw [get_eq, address?_bind, if_pos rfl]
  rcases arena.bind_cases name with ⟨_, bound, _⟩ | ⟨_, _, outcome⟩ | ⟨_, _, outcome⟩
  · simp [unbound] at bound
  · rw [outcome]
    rfl
  · rw [outcome]
    exact blank.read_eq (Nat.le_refl _)

/-! ### The store -/

/-- An arena is a faithful store, in every state that operations produce without writing to free
cells.  Free cells hold zero, and so do new names and new cells of arrays.  A name that is set holds
the value from then on if it can be bound; all other names, all cells of arrays and all arrays stay
as they are.  Taking cells changes none of them.  What is refused, and what goes to an address
outside the arena, leaves the arena as it was.  Clearing zeroes all cells and moves nothing, and a
reset gives the empty arena. -/
theorem Reachable.faithful {arena : Arena} (reached : arena.Reachable) :
    (∀ address, arena.nextFree ≤ address → arena.read address = 0.0) ∧
    (∀ name, arena.address? name = none → (arena.bind name).value.2.get name = 0.0) ∧
    (∀ name size array region address,
      (arena.allocate name size).value.2.region? array = some region →
      arena.region? array ≠ some region → region.Contains address →
        (arena.allocate name size).value.2.read address = 0.0) ∧
    (∀ name value,
      (∀ other, (arena.set name value).value.get other =
        if other = name ∧ (arena.bind name).value.1.isSome = true then value
        else arena.get other) ∧
      (arena.set name value).value.region? = arena.region? ∧
      ∀ array region address, arena.region? array = some region → region.Contains address →
        (arena.set name value).value.read address = arena.read address) ∧
    (∀ name, (arena.bind name).value.2.cells = arena.cells ∧
      ((arena.bind name).value.1 = none ↔
        arena.address? name = none ∧ arena.nextFree = arenaSize) ∧
      ((arena.bind name).value.1 = none → (arena.bind name).value.2 = arena)) ∧
    (∀ name size, (arena.allocate name size).value.2.cells = arena.cells ∧
      ((arena.allocate name size).value.1 = none ↔
        arena.fittingBase? name size = none ∧ arenaSize < arena.nextFree + size) ∧
      ((arena.allocate name size).value.1 = none → (arena.allocate name size).value.2 = arena)) ∧
    (∀ address, arenaSize ≤ address →
      (∀ value, arena.write address value = arena) ∧
      (∀ change, arena.update address change = arena) ∧
      ∀ value, arena.addTo address value = (0.0 + value, arena)) ∧
    ((∀ address, arena.clear.read address = 0.0) ∧ arena.clear.address? = arena.address? ∧
      arena.clear.region? = arena.region? ∧ arena.clear.nextFree = arena.nextFree) ∧
    arena.reset = Arena.empty := by
  have blank := reached.blank
  have separated := blank.separated
  refine ⟨fun _ => blank.read_eq, fun _ => blank.get_bind,
    fun _ _ _ _ _ => blank.read_of_new_region, fun name value => ?_, fun name => ?_,
    fun name size => ?_, fun address outside => ?_, ?_, rfl⟩
  · refine ⟨separated.get_set_eq name value, arena.region?_set name value,
      fun _ _ address declared inside => ?_⟩
    rw [separated.read_set, if_neg (separated.bind_not_in_region declared inside)]
  · exact ⟨arena.cells_bind name, separated.bind_eq_none name, arena.bind_refused⟩
  · exact ⟨arena.cells_allocate name size, arena.allocate_eq_none name size,
      arena.allocate_refused⟩
  · have lost := write_of_le outside arena
    refine ⟨lost, fun _ => lost _, fun value => ?_⟩
    rw [addTo, read_of_le outside, lost]
  · exact ⟨fun _ => read_zeroCells rfl _, rfl, rfl, rfl⟩

/-- An arena with a name, and with an array that has moved away from a cell that was written. -/
def movedArray : Arena :=
  empty.applyAll
    [.set "x" 1.5, .allocate "buf" 1, .write 1 7.0, .allocate "buf" 2, .write arenaSize 9.0]

theorem reachable_movedArray : movedArray.Reachable := by
  have named : ((empty.apply (.set "x" 1.5)).apply (.allocate "buf" 1)).Reachable :=
    .step _ (.step (.set "x" 1.5) .empty trivial) trivial
  have taken : 1 < ((empty.apply (.set "x" 1.5)).apply (.allocate "buf" 1)).nextFree := by
    simp [apply, set_value, bind, allocate, fittingBase?, region?, address?, empty, arenaSize,
      largestEnd, write]
  have written := Reachable.step (.write 1 7.0) named (.inl taken)
  have moved := Reachable.step (.allocate "buf" 2) written trivial
  exact .step (.write arenaSize 9.0) moved (.inr (Nat.le_refl _))

theorem faithful_movedArray :
    movedArray.Reachable ∧ movedArray.nextFree = 4 ∧
    (∀ address, 4 ≤ address → movedArray.read address = 0.0) ∧
    (movedArray.allocate "buf" 9).value.2.region? "buf" = some ⟨4, 9⟩ ∧
    (movedArray.allocate "buf" 9).value.2.read 12 = 0.0 ∧
    (movedArray.set "late" 2.0).value.get "late" = 2.0 ∧
    ∀ value, movedArray.write arenaSize value = movedArray := by
  have layout : movedArray.nextFree = 4 ∧ movedArray.region? "buf" = some ⟨2, 2⟩ ∧
      (movedArray.allocate "buf" 9).value.2.region? "buf" = some ⟨4, 9⟩ ∧
      (movedArray.bind "late").value.1.isSome = true := by
    simp [movedArray, applyAll, apply, set_value, bind, allocate, fittingBase?, region?, address?,
      empty, arenaSize, largestEnd, write]
  obtain ⟨nextFree, old, new, room⟩ := layout
  obtain ⟨free, _, arrays, names, _, _, outside, _⟩ := reachable_movedArray.faithful
  rw [nextFree] at free
  refine ⟨reachable_movedArray, nextFree, free, new, ?_, ?_, (outside _ (Nat.le_refl _)).1⟩
  · exact arrays "buf" 9 "buf" _ 12 new (by simp [old]) ⟨by decide, by decide⟩
  · rw [(names "late" 2.0).1, if_pos ⟨rfl, room⟩]

end Arena

end EffectScript.Machine
