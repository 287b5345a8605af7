import Std.Data.HashMap

/-!
# Tables of names

A table numbers names in the order in which they are first met.  The list of names can be handed
out, which empties it; the numbers already given are remembered all the same.
-/

namespace EffectScript.Language

/-- Names and the numbers given to them. -/
structure NameTable where
  /-- Names met since the list was last handed out, by number. -/
  names : Array String
  /-- Number of every name ever met. -/
  numbers : Std.HashMap String Nat

namespace NameTable

/-- The table without names. -/
def empty : NameTable := ⟨#[], ∅⟩

/-- The number of a name, which is listed and numbered if it is new. -/
def intern (table : NameTable) (name : String) : Nat × NameTable :=
  match table with
  | ⟨names, numbers⟩ =>
    match numbers[name]? with
    | some number => (number, ⟨names, numbers⟩)
    | none => (names.size, ⟨names.push name, numbers.insert name names.size⟩)

/-- Hand out the list of names. -/
def release (table : NameTable) : List String × NameTable :=
  (table.names.toList, { table with names := #[] })

end NameTable

end EffectScript.Language
