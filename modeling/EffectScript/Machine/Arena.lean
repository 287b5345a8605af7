import EffectScript.Log
import EffectScript.Number.Binary64
import Std.Data.HashMap

/-!
# The arena

A running script keeps its variables and arrays in a fixed number of cells.  Names and arrays take
fresh cells from one end, so no two of them ever share a cell, and nothing is given back before a
reset.  An address outside the arena denotes no cell: it reads as zero, and what is written there is
lost.
-/

namespace EffectScript.Machine

/-- Number of cells in an arena. -/
def arenaSize : Nat := 65536

/-- The cells of a declared array. -/
structure Region where
  base : Nat
  size : Nat
  deriving DecidableEq, Repr

/-- The cells of a script with the names and arrays that occupy them. -/
structure Arena where
  cells : Vector Float arenaSize
  /-- Address of every bound name. -/
  names : Std.HashMap String Nat
  /-- Cells of every declared array. -/
  arrays : Std.HashMap String Region
  /-- First cell that is neither bound nor part of an array. -/
  nextFree : Nat

namespace Arena

/-- Cells that all hold zero. -/
def zeroCells : Vector Float arenaSize :=
  Vector.replicate arenaSize 0.0

/-- The arena without names and arrays. -/
def empty : Arena := ⟨zeroCells, ∅, ∅, 0⟩

/-- Number of cells not yet taken. -/
def available (arena : Arena) : Nat :=
  arenaSize - arena.nextFree

/-- The address bound to a name. -/
def address? (arena : Arena) (name : String) : Option Nat :=
  arena.names[name]?

/-- The cells of an array. -/
def region? (arena : Arena) (name : String) : Option Region :=
  arena.arrays[name]?

/-- The address of a name, which takes the next free cell if it is new; none if no cell is free. -/
def bind (arena : Arena) (name : String) : Logged (Option Nat × Arena) :=
  match arena.address? name with
  | some address => return (some address, arena)
  | none =>
    if arenaSize ≤ arena.nextFree then do
      .note .warn s!"memory exhausted, '{name}' will not be stored"
      return (none, arena)
    else
      match arena with
      | ⟨cells, names, arrays, nextFree⟩ =>
        return (some nextFree, ⟨cells, names.insert name nextFree, arrays, nextFree + 1⟩)

/-- Largest end of a region that can be counted at all. -/
def largestEnd : Nat := UInt64.size - 1

/-- Whether an array already has at least the wanted size; then its base. -/
def fittingBase? (arena : Arena) (name : String) (size : Nat) : Option Nat :=
  match arena.region? name with
  | some region => if size ≤ region.size then some region.base else none
  | none => none

/-- Reserve cells for an array and give its base.  An array that is declared again keeps its cells
if they suffice, and moves to fresh ones otherwise; none if the arena cannot hold it. -/
def allocate (arena : Arena) (name : String) (size : Nat) : Logged (Option Nat × Arena) :=
  match arena.fittingBase? name size with
  | some base => return (some base, arena)
  | none =>
    let base := arena.nextFree
    let stop := base + size
    -- An end beyond the largest count is refused without a word.
    if largestEnd < stop then return (none, arena)
    else if arenaSize < stop then do
      .note .warn s!"cannot allocate array '{name}' of {size} cells ({arena.available} free)"
      return (none, arena)
    else do
      .note .debug s!"array '{name}' at {base}..{stop}"
      match arena with
      | ⟨cells, names, arrays, _⟩ =>
        return (some base, ⟨cells, names, arrays.insert name ⟨base, size⟩, stop⟩)

/-- The address of an array element.  Only the bounds of the arena are checked, not the size of the
array; the index is truncated and the sum is restricted to the signed 64-bit range. -/
def elementAddress? (arena : Arena) (name : String) (index : Float) : Option Nat :=
  match arena.region? name with
  | none => none
  | some region =>
    let address := Number.saturate (region.base + Number.truncate index)
    if 0 ≤ address && address < arenaSize then some address.toNat else none

/-- The value of a cell. -/
def read (arena : Arena) (address : Nat) : Float :=
  arena.cells[address]?.getD 0.0

/-- Set a cell. -/
def write (arena : Arena) (address : Nat) (value : Float) : Arena :=
  match arena with
  | ⟨cells, names, arrays, nextFree⟩ =>
    ⟨cells.setIfInBounds address value, names, arrays, nextFree⟩

/-- Set a cell to a function of its value. -/
def update (arena : Arena) (address : Nat) (change : Float → Float) : Arena :=
  arena.write address (change (arena.read address))

/-- Add to a cell, and give the sum; outside the arena the sum starts from zero and is lost. -/
def addTo (arena : Arena) (address : Nat) (value : Float) : Float × Arena :=
  let sum := arena.read address + value
  (sum, arena.write address sum)

/-- The value of a name, zero if it is not bound. -/
def get (arena : Arena) (name : String) : Float :=
  match arena.address? name with
  | some address => arena.read address
  | none => 0.0

/-- Set the value of a name, binding it if needed. -/
def set (arena : Arena) (name : String) (value : Float) : Logged Arena := do
  let (address, arena) ← arena.bind name
  match address with
  | some address => return arena.write address value
  | none => return arena

/-- Zero all cells; names and arrays keep their places. -/
def clear (arena : Arena) : Arena :=
  { arena with cells := zeroCells }

/-- Forget all names and arrays, and zero all cells. -/
def reset (arena : Arena) : Arena :=
  clear { arena with names := ∅, arrays := ∅, nextFree := 0 }

/-- One line on the contents. -/
def summary (arena : Arena) : String :=
  "Memory \x7b " ++
    s!"named: {arena.names.size}, arrays: {arena.arrays.size}, next_free: {arena.nextFree}" ++
    " \x7d"

end Arena

end EffectScript.Machine
