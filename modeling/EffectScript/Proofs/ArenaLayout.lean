import EffectScript.Machine.Arena

/-!
# The layout of an arena

Names and arrays take their cells from one cursor.  This file states what each allocating operation
can do, derives that names and arrays never share a cell in any arena that operations can produce,
and that a name keeps its address until the next reset.
-/

namespace EffectScript.Machine

/-- The cell at an address belongs to the region. -/
def Region.Contains (region : Region) (address : Nat) : Prop :=
  region.base ≤ address ∧ address < region.base + region.size

namespace Arena

/-! ### What an operation can do -/

/-- What one operation other than a reset can make of an arena: the layout stays and cells change,
or the next cells are taken by a new name or by an array. -/
inductive Change (before : Arena) : Arena → Prop
  | keep (cells : Vector Float arenaSize) : Change before { before with cells }
  | name (cells : Vector Float arenaSize) {name : String}
      (fresh : before.address? name = none) (room : before.nextFree < arenaSize) :
      Change before
        { before with
          cells
          names := before.names.insert name before.nextFree
          nextFree := before.nextFree + 1 }
  | array (name : String) {size : Nat} (room : before.nextFree + size ≤ arenaSize) :
      Change before
        { before with
          arrays := before.arrays.insert name ⟨before.nextFree, size⟩
          nextFree := before.nextFree + size }

/-- A name that is bound keeps its address, a new one takes the next cell, and when no cell is left
nothing happens. -/
theorem bind_cases (arena : Arena) (name : String) :
    (∃ address, arena.address? name = some address ∧
      (arena.bind name).value = (some address, arena)) ∨
    (arena.address? name = none ∧ arenaSize ≤ arena.nextFree ∧
      (arena.bind name).value = (none, arena)) ∨
    (arena.address? name = none ∧ arena.nextFree < arenaSize ∧
      (arena.bind name).value =
        (some arena.nextFree,
          { arena with
            names := arena.names.insert name arena.nextFree
            nextFree := arena.nextFree + 1 })) := by
  rw [bind]
  cases bound : arena.address? name with
  | some address => exact .inl ⟨address, rfl, rfl⟩
  | none =>
    by_cases full : arenaSize ≤ arena.nextFree
    · exact .inr (.inl ⟨rfl, full, by simp [full]⟩)
    · exact .inr (.inr ⟨rfl, Nat.lt_of_not_le full, by simp [full]⟩)

theorem change_bind (arena : Arena) (name : String) : Change arena (arena.bind name).value.2 := by
  rcases arena.bind_cases name with ⟨address, _, outcome⟩ | ⟨_, _, outcome⟩ |
    ⟨fresh, room, outcome⟩ <;> rw [outcome]
  · exact .keep arena.cells
  · exact .keep arena.cells
  · exact .name arena.cells fresh room

/-- An array keeps its cells, whatever address is given, or takes the next ones. -/
theorem change_allocate (arena : Arena) (name : String) (size : Nat) :
    Change arena (arena.allocate name size).value.2 := by
  rw [allocate]
  cases fitting : arena.fittingBase? name size with
  | some base => exact .keep arena.cells
  | none =>
    by_cases uncountable : largestEnd < arena.nextFree + size
    · simpa [uncountable] using Change.keep arena.cells
    · by_cases tooLarge : arenaSize < arena.nextFree + size
      · simpa [uncountable, tooLarge] using Change.keep arena.cells
      · simpa [uncountable, tooLarge] using Change.array name (Nat.le_of_not_lt tooLarge)

theorem change_write (arena : Arena) (address : Nat) (value : Float) :
    Change arena (arena.write address value) :=
  .keep _

/-- Setting a name is binding it and writing to its cell, if there is one. -/
theorem set_value (arena : Arena) (name : String) (value : Float) :
    (arena.set name value).value =
      match (arena.bind name).value with
      | (some address, bound) => bound.write address value
      | (none, bound) => bound := by
  rw [set]
  rcases outcome : (arena.bind name).value with ⟨address | address, bound⟩ <;> simp [outcome]

theorem change_set (arena : Arena) (name : String) (value : Float) :
    Change arena (arena.set name value).value := by
  rw [set_value]
  rcases arena.bind_cases name with ⟨address, _, outcome⟩ | ⟨_, _, outcome⟩ |
    ⟨fresh, room, outcome⟩ <;> rw [outcome]
  · exact arena.change_write address value
  · exact .keep arena.cells
  · exact .name _ fresh room

/-! ### Addresses and regions after a change -/

@[simp]
theorem address?_empty (name : String) : empty.address? name = none := by
  simp [empty, address?]

@[simp]
theorem region?_empty (name : String) : empty.region? name = none := by
  simp [empty, region?]

@[simp]
theorem address?_mk_insert (cells : Vector Float arenaSize) (names : Std.HashMap String Nat)
    (arrays : Std.HashMap String Region) (nextFree address : Nat) (name other : String) :
    address? ⟨cells, names.insert name address, arrays, nextFree⟩ other =
      if name = other then some address else names[other]? := by
  simp [address?, Std.HashMap.getElem?_insert]

@[simp]
theorem region?_mk_insert (cells : Vector Float arenaSize) (names : Std.HashMap String Nat)
    (arrays : Std.HashMap String Region) (nextFree : Nat) (region : Region)
    (name other : String) :
    region? ⟨cells, names, arrays.insert name region, nextFree⟩ other =
      if name = other then some region else arrays[other]? := by
  simp [region?, Std.HashMap.getElem?_insert]

/-! ### Names and arrays stay apart -/

/-- No two occupants of an arena share a cell, and all of them lie below the cursor. -/
structure Separated (arena : Arena) : Prop where
  nextFree_le : arena.nextFree ≤ arenaSize
  address_lt {name : String} {address : Nat} :
    arena.address? name = some address → address < arena.nextFree
  address_injective {name other : String} {address : Nat} :
    arena.address? name = some address → arena.address? other = some address → name = other
  region_le {name : String} {region : Region} :
    arena.region? name = some region → region.base + region.size ≤ arena.nextFree
  regions_disjoint {name other : String} {region neighbour : Region} :
    name ≠ other → arena.region? name = some region → arena.region? other = some neighbour →
      ∀ address, ¬(region.Contains address ∧ neighbour.Contains address)
  address_not_in_region {name array : String} {address : Nat} {region : Region} :
    arena.address? name = some address → arena.region? array = some region →
      ¬region.Contains address

theorem separated_empty : Separated empty where
  nextFree_le := Nat.zero_le _
  address_lt bound := by simp at bound
  address_injective bound := by simp at bound
  region_le declared := by simp at declared
  regions_disjoint _ declared := by simp at declared
  address_not_in_region bound := by simp at bound

/-- The next cell is free: giving it to a new name keeps the occupants apart. -/
theorem Separated.withName {arena : Arena} (separated : arena.Separated)
    (cells : Vector Float arenaSize) {name : String} (room : arena.nextFree < arenaSize) :
    Separated
      { arena with
        cells
        names := arena.names.insert name arena.nextFree
        nextFree := arena.nextFree + 1 } where
  nextFree_le := room
  address_lt {other address} bound := by
    rw [address?_mk_insert] at bound
    split at bound
    · obtain rfl := Option.some.inj bound
      exact Nat.lt_succ_self _
    · exact Nat.lt_succ_of_lt (separated.address_lt bound)
  address_injective {first second address} boundFirst boundSecond := by
    rw [address?_mk_insert] at boundFirst boundSecond
    split at boundFirst <;> split at boundSecond
    · simp_all
    · obtain rfl := Option.some.inj boundFirst
      exact absurd (separated.address_lt boundSecond) (Nat.lt_irrefl _)
    · obtain rfl := Option.some.inj boundSecond
      exact absurd (separated.address_lt boundFirst) (Nat.lt_irrefl _)
    · exact separated.address_injective boundFirst boundSecond
  region_le declared := Nat.le_succ_of_le (separated.region_le declared)
  regions_disjoint := separated.regions_disjoint
  address_not_in_region {other array address region} bound declared := by
    rw [address?_mk_insert] at bound
    split at bound
    · obtain rfl := Option.some.inj bound
      intro inside
      exact absurd (separated.region_le declared) (Nat.not_le_of_lt inside.2)
    · exact separated.address_not_in_region bound declared

/-- The cells from the cursor on are free: giving them to an array keeps the occupants apart. -/
theorem Separated.withArray {arena : Arena} (separated : arena.Separated) (name : String)
    {size : Nat} (room : arena.nextFree + size ≤ arenaSize) :
    Separated
      { arena with
        arrays := arena.arrays.insert name ⟨arena.nextFree, size⟩
        nextFree := arena.nextFree + size } where
  nextFree_le := room
  address_lt bound := Nat.lt_add_right size (separated.address_lt bound)
  address_injective := separated.address_injective
  region_le {other region} declared := by
    rw [region?_mk_insert] at declared
    split at declared
    · obtain rfl := Option.some.inj declared
      exact Nat.le_refl _
    · exact Nat.le_add_right_of_le (separated.region_le declared)
  regions_disjoint {first second region neighbour} different declaredFirst declaredSecond := by
    intro address inside
    rw [region?_mk_insert] at declaredFirst declaredSecond
    split at declaredFirst <;> split at declaredSecond
    · simp_all
    · obtain rfl := Option.some.inj declaredFirst
      have below := separated.region_le declaredSecond
      exact absurd inside.1.1 (by have := inside.2.2; simp only; omega)
    · obtain rfl := Option.some.inj declaredSecond
      have below := separated.region_le declaredFirst
      exact absurd inside.2.1 (by have := inside.1.2; simp only; omega)
    · exact separated.regions_disjoint different declaredFirst declaredSecond address inside
  address_not_in_region {other array address region} bound declared := by
    rw [region?_mk_insert] at declared
    split at declared
    · obtain rfl := Option.some.inj declared
      intro inside
      exact absurd (separated.address_lt bound) (Nat.not_lt_of_le inside.1)
    · exact separated.address_not_in_region bound declared

theorem Separated.change {before after : Arena} (separated : before.Separated)
    (change : Change before after) : after.Separated := by
  cases change with
  | keep cells => exact ⟨separated.nextFree_le, separated.address_lt, separated.address_injective,
      separated.region_le, separated.regions_disjoint, separated.address_not_in_region⟩
  | name cells _ room => exact separated.withName cells room
  | array name room => exact separated.withArray name room

/-! ### What lasts until a reset -/

/-- A later state of an arena: the cursor has not moved back, every name has kept its address, and
if no cell was left then no further name is bound. -/
structure Extends (before after : Arena) : Prop where
  nextFree_le : before.nextFree ≤ after.nextFree
  address_eq {name : String} {address : Nat} :
    before.address? name = some address → after.address? name = some address
  address_eq_of_full (name : String) :
    arenaSize ≤ before.nextFree → after.address? name = before.address? name

namespace Extends

theorem refl (arena : Arena) : Extends arena arena := ⟨Nat.le_refl _, id, fun _ _ => rfl⟩

theorem trans {first second third : Arena} (earlier : Extends first second)
    (later : Extends second third) : Extends first third where
  nextFree_le := Nat.le_trans earlier.nextFree_le later.nextFree_le
  address_eq bound := later.address_eq (earlier.address_eq bound)
  address_eq_of_full name full := by
    rw [later.address_eq_of_full name (Nat.le_trans full earlier.nextFree_le),
      earlier.address_eq_of_full name full]

theorem ofChange {before after : Arena} (change : Change before after) :
    Extends before after := by
  cases change with
  | keep cells => exact ⟨Nat.le_refl _, id, fun _ _ => rfl⟩
  | @name cells new fresh room =>
    refine ⟨Nat.le_succ _, fun {name address} bound => ?_,
      fun _ full => absurd room (Nat.not_lt_of_le full)⟩
    have different : new ≠ name := by
      rintro rfl
      simp [fresh] at bound
    rw [address?_mk_insert, if_neg different]
    exact bound
  | array name room => exact ⟨Nat.le_add_right _ _, id, fun _ _ => rfl⟩

end Extends

/-! ### Runs of operations -/

/-- The operations on an arena. -/
inductive Operation where
  | bind (name : String)
  | allocate (name : String) (size : Nat)
  | set (name : String) (value : Float)
  | write (address : Nat) (value : Float)
  /-- Set a cell to a function of its value. -/
  | update (address : Nat) (change : Float → Float)
  | clear
  | reset

/-- The arena after one operation. -/
def apply (arena : Arena) : Operation → Arena
  | .bind name => (arena.bind name).value.2
  | .allocate name size => (arena.allocate name size).value.2
  | .set name value => (arena.set name value).value
  | .write address value => arena.write address value
  | .update address change => arena.update address change
  | .clear => arena.clear
  | .reset => arena.reset

/-- The arena after operations in sequence. -/
def applyAll (arena : Arena) (operations : List Operation) : Arena :=
  operations.foldl apply arena

theorem change_apply (arena : Arena) {operation : Operation} (kept : operation ≠ .reset) :
    Change arena (arena.apply operation) := by
  cases operation with
  | bind name => exact arena.change_bind name
  | allocate name size => exact arena.change_allocate name size
  | set name value => exact arena.change_set name value
  | write address value => exact arena.change_write address value
  | update address change => exact arena.change_write address _
  | clear => exact .keep zeroCells
  | reset => exact absurd rfl kept

theorem Separated.apply {arena : Arena} (separated : arena.Separated) (operation : Operation) :
    (arena.apply operation).Separated := by
  by_cases reset : operation = .reset
  · subst reset
    exact separated_empty
  · exact separated.change (arena.change_apply reset)

theorem Separated.applyAll {arena : Arena} (separated : arena.Separated)
    (operations : List Operation) : (arena.applyAll operations).Separated := by
  induction operations generalizing arena with
  | nil => exact separated
  | cons operation rest ih => exact ih (separated.apply operation)

theorem extends_applyAll (arena : Arena) {operations : List Operation}
    (kept : .reset ∉ operations) : Extends arena (arena.applyAll operations) := by
  induction operations generalizing arena with
  | nil => exact .refl arena
  | cons operation rest ih =>
    rw [List.mem_cons, not_or] at kept
    have first := Extends.ofChange (arena.change_apply (Ne.symm kept.1))
    exact first.trans (ih (arena.apply operation) kept.2)

/-! ### Addresses that operations give -/

theorem Separated.address_lt_arenaSize {arena : Arena} (separated : arena.Separated)
    {name : String} {address : Nat} (bound : arena.address? name = some address) :
    address < arenaSize :=
  Nat.lt_of_lt_of_le (separated.address_lt bound) separated.nextFree_le

theorem Separated.bind_lt_arenaSize {arena : Arena} (separated : arena.Separated)
    {name : String} {address : Nat} (given : (arena.bind name).value.1 = some address) :
    address < arenaSize := by
  rcases arena.bind_cases name with ⟨old, bound, outcome⟩ | ⟨_, _, outcome⟩ |
    ⟨_, room, outcome⟩ <;> rw [outcome] at given
  · obtain rfl := Option.some.inj given
    exact separated.address_lt_arenaSize bound
  · simp at given
  · obtain rfl := Option.some.inj given
    exact room

theorem elementAddress_lt_arenaSize {arena : Arena} {name : String} {index : Float}
    {address : Nat} (given : arena.elementAddress? name index = some address) :
    address < arenaSize := by
  unfold elementAddress? at given
  split at given
  · simp at given
  · dsimp only at given
    split at given
    · rename_i inside
      obtain rfl := Option.some.inj given
      simp only [Bool.and_eq_true, decide_eq_true_eq] at inside
      omega
    · simp at given

/-- In every arena that operations can produce the occupants are apart, the count of free cells is
exact, what is bound stays where it is until a reset, and every address given lies in the arena. -/
theorem applyAll_empty_never_aliases (operations : List Operation) :
    let arena := empty.applyAll operations
    arena.Separated ∧
    arena.available + arena.nextFree = arenaSize ∧
    (∀ later, .reset ∉ later → Extends arena (arena.applyAll later)) ∧
    (∀ name address, (arena.bind name).value.1 = some address → address < arenaSize) ∧
    (∀ name address, arena.address? name = some address → address < arenaSize) ∧
    (∀ name index address, arena.elementAddress? name index = some address →
      address < arenaSize) := by
  intro arena
  have separated : arena.Separated := separated_empty.applyAll operations
  refine ⟨separated, ?_, fun later kept => arena.extends_applyAll kept,
    fun _ _ given => separated.bind_lt_arenaSize given,
    fun _ _ bound => separated.address_lt_arenaSize bound,
    fun _ _ _ given => elementAddress_lt_arenaSize given⟩
  exact Nat.sub_add_cancel separated.nextFree_le

end Arena

end EffectScript.Machine
