import EffectScript.Proofs.InstalledScript

/-!
# Names that have a cell

A tree lists at most one name for each of its mentions.  So a script that mentions fewer names than
there are cells has a cell of its own for each of its variables.
-/

namespace EffectScript

namespace Language

theorem NameTable.size_intern_le (table : NameTable) (name : String) :
    (table.intern name).2.names.size ≤ table.names.size + 1 := by
  cases known : table.numbers[name]? with
  | some number =>
    rw [intern_of_some known]
    exact Nat.le_succ _
  | none =>
    rw [intern_of_none known, Array.size_push]

/-- At most one symbol is listed for each mention. -/
def MoveLaw.listing : MoveLaw where
  moves before mentions after :=
    after.symbols.names.size ≤ before.symbols.names.size + mentions.length
  fails _ _ := True
  refl _ := Nat.le_refl _
  trans earlier later := by
    rw [List.length_append]
    omega
  fails_of_moves _ _ := trivial
  refuse _ := trivial
  advance parser := by
    rw [parser.symbols_advance]
    exact Nat.le_refl _
  note _ _ := Nat.le_refl _
  symbol parser name _ _ := parser.symbols.size_intern_le name
  host _ _ _ _ := Nat.le_succ _
  function _ _ := Nat.le_succ _

theorem ensures_program_length (parser : Parser) :
    Parse.program.Ensures parser
      (fun program _ => program.symbols.length ≤
        parser.symbols.names.size + (mentionsAll program.items).length)
      (fun _ => True) := by
  refine (MoveLaw.listing.ensures_program (fun _ _ => Nat.le_succ _) parser).imp
    (fun program _ parsed => ?_) fun _ _ => trivial
  obtain ⟨last, moved, symbols, _⟩ := parsed
  rw [symbols, Array.length_toList]
  exact moved

end Language

open EffectScript.Language Machine Script

theorem Script.length_symbols_le {source : String} {script : Script}
    (compiled : (compile source).value = .ok script) :
    script.program.symbols.length ≤ (mentionsAll script.program.items).length := by
  obtain ⟨⟨body, parsed⟩, _⟩ := compile_ok compiled
  have bounded := (ensures_program_length (Parser.ofSource body)).run_ok parsed
  rwa [show (Parser.ofSource body).symbols.names.size = 0 from rfl, Nat.zero_add] at bounded

namespace Interpreter

theorem separated_bindNames {arena : Arena} (separated : arena.Separated)
    (slots : Array (Option Nat)) (names : List String) :
    (bindNames arena slots names).value.2.Separated := by
  induction names generalizing arena slots with
  | nil => exact separated
  | cons name rest ih =>
    rw [bindNames_cons]
    exact ih (separated.change (arena.change_bind name)) _

/-- Where there are cells enough for all names, each of them has one. -/
theorem exists_address_bindNames {arena : Arena} (slots : Array (Option Nat))
    {names : List String} (room : arena.nextFree + names.length ≤ arenaSize) {name : String}
    (member : name ∈ names) :
    ∃ address, (bindNames arena slots names).value.2.address? name = some address := by
  induction names generalizing arena slots with
  | nil => contradiction
  | cons head rest ih =>
    rw [List.length_cons] at room
    have extended := extends_bindNames (arena.bind head).value.2
      (slots.push (arena.bind head).value.1) rest
    rw [bindNames_cons]
    rcases arena.bind_cases head with ⟨address, bound, outcome⟩ | ⟨_, full, _⟩ |
      ⟨_, _, outcome⟩
    · rw [outcome] at extended ⊢
      rcases List.mem_cons.1 member with rfl | member
      · exact ⟨address, extended.address_eq bound⟩
      · exact ih _ (by simp only; omega) member
    · omega
    · rw [outcome] at extended ⊢
      rcases List.mem_cons.1 member with rfl | member
      · exact ⟨arena.nextFree, extended.address_eq (by simp)⟩
      · exact ih _ (by simp only; omega) member

/-- Once a script with fewer mentions than cells is installed, each of its variables has a cell. -/
theorem exists_cell_install {source : String} {script : Script}
    (compiled : (Script.compile source).value = .ok script)
    (few : (mentionsAll script.program.items).length < arenaSize) (interpreter : Interpreter) :
    ∃ context bindings,
      (interpreter.install script).value = ⟨context, some ⟨script, bindings⟩, .fresh⟩ ∧
      ∀ symbol name, script.program.symbols[symbol]? = some name → ∃ address < arenaSize,
        bindings.slot? symbol = some address ∧ context.arena.address? name = some address := by
  obtain ⟨context, bindings, installed, cells, resolved⟩ := interpreter.install_resolves script
  refine ⟨context, bindings, installed, fun symbol name listed => ?_⟩
  have room : Arena.empty.nextFree + script.program.symbols.length ≤ arenaSize := by
    have listing := Script.length_symbols_le compiled
    have start : Arena.empty.nextFree = 0 := rfl
    omega
  obtain ⟨address, found⟩ := exists_address_bindNames #[] room (List.mem_of_getElem? listed)
  have separated := separated_bindNames Arena.separated_empty #[] script.program.symbols
  rw [← cells] at found separated
  exact ⟨address, separated.address_lt_arenaSize found, (resolved.slot_eq listed).trans found,
    found⟩

end Interpreter

end EffectScript
