import EffectScript.Proofs.ByName
import EffectScript.Proofs.Requests

/-!
# An installed script runs as if by name

Installing a script binds its names in the order of their numbers, so that the slots are the
addresses of the names; what a host may ask afterwards never moves a name.  Hence an interpreter
with a compiled script answers every sequence of requests exactly as one that evaluates by name.
Names beyond the last cell of the arena read as zero, and what is stored to them is lost.
-/

namespace EffectScript.Machine

open EffectScript.Language Script

/-! ### Installing resolves -/

theorem Arena.bind_value (arena : Arena) (name : String) :
    (arena.bind name).value.1 = (arena.bind name).value.2.address? name := by
  rcases arena.bind_cases name with ⟨address, bound, outcome⟩ | ⟨unbound, _, outcome⟩ |
    ⟨_, _, outcome⟩ <;> rw [outcome]
  · exact bound.symm
  · exact unbound.symm
  · simp

theorem Arena.full_of_bind {arena : Arena} {name : String}
    (unbound : (arena.bind name).value.2.address? name = none) :
    arenaSize ≤ (arena.bind name).value.2.nextFree := by
  rcases arena.bind_cases name with ⟨address, bound, outcome⟩ | ⟨_, full, outcome⟩ |
    ⟨_, _, outcome⟩ <;> rw [outcome] at unbound ⊢
  · rw [bound] at unbound
    contradiction
  · exact full
  · simp at unbound

end EffectScript.Machine

namespace EffectScript.Interpreter

open EffectScript.Language Machine Script

theorem bindNames_cons (arena : Arena) (slots : Array (Option Nat)) (name : String)
    (rest : List String) :
    (bindNames arena slots (name :: rest)).value =
      (bindNames (arena.bind name).value.2 (slots.push (arena.bind name).value.1) rest).value :=
  rfl

theorem extends_bindNames (arena : Arena) (slots : Array (Option Nat)) (names : List String) :
    arena.Extends (bindNames arena slots names).value.2 := by
  induction names generalizing arena slots with
  | nil => exact .refl arena
  | cons name rest ih =>
    rw [bindNames_cons]
    exact (Arena.Extends.ofChange (arena.change_bind name)).trans (ih _ _)

/-- A name that was just bound, or refused for want of room, is seen alike ever after. -/
theorem address?_bind_of_extends {arena later : Arena} {name : String}
    (extended : (arena.bind name).value.2.Extends later) :
    later.address? name = (arena.bind name).value.1 := by
  rw [Arena.bind_value]
  cases bound : (arena.bind name).value.2.address? name with
  | some address => exact extended.address_eq bound
  | none => rw [extended.address_eq_of_full name (Arena.full_of_bind bound), bound]

/-- The slots are the addresses that the names have in the end. -/
theorem bindNames_slots (arena : Arena) (slots : Array (Option Nat)) (names : List String) :
    (bindNames arena slots names).value.1.toList =
      slots.toList ++ names.map (bindNames arena slots names).value.2.address? := by
  induction names generalizing arena slots with
  | nil => simp [bindNames]
  | cons name rest ih =>
    rw [bindNames_cons, ih, List.map_cons, address?_bind_of_extends (extends_bindNames _ _ _)]
    simp

theorem bindNames_full (arena : Arena) (slots : Array (Option Nat)) {names : List String}
    {name : String} (member : name ∈ names)
    (unbound : (bindNames arena slots names).value.2.address? name = none) :
    arenaSize ≤ (bindNames arena slots names).value.2.nextFree := by
  induction names generalizing arena slots with
  | nil => contradiction
  | cons head rest ih =>
    rw [bindNames_cons] at unbound ⊢
    rcases List.mem_cons.1 member with rfl | member
    · have extended := extends_bindNames (arena.bind name).value.2
        (slots.push (arena.bind name).value.1) rest
      have refused := (address?_bind_of_extends extended).symm.trans unbound
      rw [Arena.bind_value] at refused
      exact Nat.le_trans (Arena.full_of_bind refused) extended.nextFree_le
    · exact ih _ _ member unbound

/-- Of distinct new names, those beyond the last free cell get no address. -/
theorem bindNames_overflow (arena : Arena) (slots : Array (Option Nat)) {names : List String}
    (distinct : names.Nodup) (fresh : ∀ name ∈ names, arena.address? name = none)
    {place : Nat} {name : String} (found : names[place]? = some name)
    (beyond : arenaSize ≤ arena.nextFree + place) :
    (bindNames arena slots names).value.2.address? name = none := by
  induction names generalizing arena slots place with
  | nil => simp at found
  | cons head rest ih =>
    obtain ⟨absent, distinct⟩ := List.nodup_cons.1 distinct
    rw [bindNames_cons]
    have new := fresh head List.mem_cons_self
    have extended := extends_bindNames (arena.bind head).value.2
      (slots.push (arena.bind head).value.1) rest
    rcases arena.bind_cases head with ⟨address, bound, _⟩ | ⟨_, full, outcome⟩ |
      ⟨_, room, outcome⟩
    · rw [new] at bound
      contradiction
    · rw [outcome] at extended ⊢
      rw [extended.address_eq_of_full name full]
      exact fresh name (List.mem_of_getElem? found)
    · cases place with
      | zero => omega
      | succ place =>
        rw [outcome]
        refine ih _ _ distinct (fun other member => ?_) (by simpa using found) ?_
        · have different : head ≠ other := by
            rintro rfl
            exact absent member
          rw [Arena.address?_mk_insert, if_neg different]
          exact fresh other (List.mem_cons_of_mem _ member)
        · simp only
          omega

theorem findFunctions_value (functions : Array (Option Builtin)) (names : List String) :
    (findFunctions functions names).value.toList =
      functions.toList ++ names.map Builtin.ofName? := by
  induction names generalizing functions with
  | nil => simp [findFunctions]
  | cons name rest ih =>
    have step : (findFunctions functions (name :: rest)).value =
        (findFunctions (functions.push (Builtin.ofName? name)) rest).value := by
      rw [findFunctions]
      dsimp only
      split <;> rfl
    rw [step, ih]
    simp

/-- Installing a script resolves the names of its program. -/
theorem install_resolves (interpreter : Interpreter) (script : Script) :
    ∃ context bindings,
      (interpreter.install script).value = ⟨context, some ⟨script, bindings⟩, .fresh⟩ ∧
        context.arena = (bindNames .empty #[] script.program.symbols).value.2 ∧
        context.Resolved bindings script.program := by
  refine ⟨_, _, rfl, rfl, ?_⟩
  constructor
  · intro symbol name listed
    have slots := bindNames_slots .empty #[] script.program.symbols
    simp only [Bindings.slot?, ← Array.getElem?_toList]
    rw [slots, List.nil_append, List.getElem?_map, listed]
    rfl
  · intro symbol name listed unbound
    exact bindNames_full .empty #[] (List.mem_of_getElem? listed) unbound
  · intro number name listed
    simp only [Bindings.function?, ← Array.getElem?_toList]
    rw [findFunctions_value]
    simp [listed]

end EffectScript.Interpreter

namespace EffectScript

open EffectScript.Language Machine Script

/-! ### Runners that agree -/

namespace Runner

/-- Two runners do the same in every context with an invariant, which lasts through changes of the
arena and is not concerned with anything else. -/
structure Agree (invariant : Context → Prop) (first second : Runner) : Prop where
  has_eq (kind : SectionKind) : first.has kind = second.has kind
  run_eq (kind : SectionKind) {context : Context} : invariant context →
    first.run kind context = second.run kind context ∧ invariant (first.run kind context)
  stable {before after : Context} : before.arena.Change after.arena →
    invariant before → invariant after

variable {invariant : Context → Prop} {first second : Runner} (agree : Agree invariant first second)

include agree

/-- A context with the same arena has the invariant too. -/
theorem Agree.same_arena {before after : Context} (holds : invariant before)
    (same : after.arena = before.arena) : invariant after := by
  refine agree.stable ?_ holds
  rw [same]
  exact .keep before.arena.cells

theorem Agree.frame {context : Context} (holds : invariant context) (left right : Float) :
    first.frame left right context = second.frame left right context ∧
      invariant (first.frame left right context).2 := by
  have started : invariant { context with spl0 := left, spl1 := right } :=
    agree.same_arena holds rfl
  obtain ⟨same, kept⟩ := agree.run_eq .sample started
  exact ⟨by simp only [Runner.frame, same], kept⟩

theorem Agree.stereoFrame (index : Nat) {state : Context × Audio.Buffer}
    (holds : invariant state.1) :
    first.stereoFrame index state = second.stereoFrame index state ∧
      invariant (first.stereoFrame index state).1 := by
  obtain ⟨same, kept⟩ := agree.frame holds (state.2.sample 0 index).toFloat
    (state.2.sample 1 index).toFloat
  exact ⟨by simp only [Runner.stereoFrame, same], kept⟩

theorem Agree.monoFrame (index : Nat) {state : Context × Audio.Buffer}
    (holds : invariant state.1) :
    first.monoFrame index state = second.monoFrame index state ∧
      invariant (first.monoFrame index state).1 := by
  obtain ⟨same, kept⟩ := agree.frame holds (state.2.sample 0 index).toFloat
    (state.2.sample 0 index).toFloat
  exact ⟨by simp only [Runner.monoFrame, same], kept⟩

omit agree in
/-- Steps that do the same and keep an invariant do the same when repeated. -/
theorem fold_agree {State : Type} (holds : State → Prop) {step other : Nat → State → State}
    (same : ∀ index state, holds state →
      step index state = other index state ∧ holds (step index state))
    (count : Nat) {state : State} (start : holds state) :
    Nat.fold count (fun index _ => step index) state =
        Nat.fold count (fun index _ => other index) state ∧
      holds (Nat.fold count (fun index _ => step index) state) := by
  refine fold_related (fun state twin => state = twin ∧ holds state) ?_ ⟨rfl, start⟩
  rintro index _ state _ ⟨rfl, kept⟩
  exact same index state kept

theorem Agree.frames (count : Nat) (state : Context × Audio.Buffer) (holds : invariant state.1) :
    first.frames count state = second.frames count state ∧
      invariant (first.frames count state).1 := by
  unfold Runner.frames
  split
  · exact fold_agree (fun state : Context × Audio.Buffer => invariant state.1)
      (fun index _ kept => agree.stereoFrame index kept) count holds
  · exact fold_agree (fun state : Context × Audio.Buffer => invariant state.1)
      (fun index _ kept => agree.monoFrame index kept) count holds

/-- Runners that agree give the same reply to a request, and leave the same context. -/
theorem Agree.answer {context : Context} (holds : invariant context) (request : Request) :
    first.answer context request = second.answer context request ∧
      invariant (first.answer context request).2 := by
  cases request with
  | runInit =>
    have cleared : invariant { context with arena := context.arena.clear } :=
      agree.stable (.keep _) holds
    obtain ⟨same, kept⟩ := agree.run_eq .init cleared
    exact ⟨congrArg (Reply.done, ·) same, kept⟩
  | runSlider =>
    obtain ⟨same, kept⟩ := agree.run_eq .slider holds
    exact ⟨congrArg (Reply.done, ·) same, kept⟩
  | runSample left right =>
    obtain ⟨same, kept⟩ := agree.frame holds left right
    simp only [Runner.answer, ← agree.has_eq, ← same]
    split
    · exact ⟨trivial, kept⟩
    · exact ⟨trivial, holds⟩
  | runBlock buffer =>
    obtain ⟨sameBlock, keptBlock⟩ := agree.run_eq .block holds
    obtain ⟨same, kept⟩ := agree.frames buffer.samples (first.run .block context, buffer) keptBlock
    simp only [Runner.answer, ← agree.has_eq, ← sameBlock, ← same]
    split
    · exact ⟨trivial, holds⟩
    · split
      · exact ⟨trivial, kept⟩
      · exact ⟨trivial, keptBlock⟩
  | setParameter index value =>
    have stored : invariant (context.setHost (.slider index) value) :=
      agree.same_arena holds (context.arena_setHost _ _)
    obtain ⟨same, kept⟩ := agree.run_eq .slider stored
    simp only [Runner.answer, ← same]
    split
    · exact ⟨trivial, kept⟩
    · exact ⟨trivial, stored⟩
  | storeParameter index value =>
    exact ⟨rfl, agree.same_arena holds (context.arena_setHost _ _)⟩
  | setVariable name value =>
    exact ⟨rfl, agree.stable (context.arena.change_set name value) holds⟩
  | allocateArray name size =>
    exact ⟨rfl, agree.stable (context.arena.change_allocate name size) holds⟩
  | setSampleRate rate => exact ⟨rfl, agree.same_arena holds rfl⟩

/-- Runners that agree answer all requests alike, and every context on the way has the
invariant. -/
theorem Agree.trace {context : Context} (holds : invariant context) (requests : List Request) :
    first.trace context requests = second.trace context requests ∧
      ∀ outcome ∈ first.trace context requests, invariant outcome.2 := by
  induction requests generalizing context with
  | nil => exact ⟨rfl, by simp [Runner.trace]⟩
  | cons request rest ih =>
    obtain ⟨same, kept⟩ := agree.answer holds request
    obtain ⟨sameRest, keptRest⟩ := ih kept
    refine ⟨?_, fun outcome member => ?_⟩
    · rw [Runner.trace, Runner.trace, ← same, sameRest]
    · rcases List.mem_cons.1 member with rfl | member
      · exact kept
      · exact keptRest outcome member

omit agree

/-! ### By number and by name -/

/-- Run the sections of a script by name. -/
def byName (script : Script) : Runner where
  has kind := (script.body? kind).isSome
  run kind context :=
    match script.body? kind with
    | some body => (ByName.evalAll 0.0 body context).2
    | none => context

/-- A compiled script does the same by number and by name wherever its names are resolved. -/
theorem agree_byName {source : String} {script : Script}
    (compiled : (Script.compile source).value = .ok script) (bindings : Bindings) :
    Agree (Context.Resolved bindings script.program) (ofInstalled ⟨script, bindings⟩)
      (byName script) where
  has_eq _ := rfl
  run_eq kind {context} resolved := by
    simp only [run_ofInstalled, Installed.run, byName]
    cases found : script.body? kind with
    | some body =>
      obtain ⟨same, kept⟩ := evalAll_agree 0.0 body (body_listed compiled found) context resolved
      exact ⟨congrArg Prod.snd same, kept⟩
    | none => exact ⟨rfl, resolved⟩
  stable change resolved := Bindings.Resolve.extends resolved (.ofChange change)

end Runner

/-- A name beyond the last cell has no slot. -/
theorem Interpreter.slot?_overflow {source : String} {script : Script}
    (compiled : (Script.compile source).value = .ok script) {context : Context}
    {bindings : Bindings}
    (bound : context.arena = (bindNames .empty #[] script.program.symbols).value.2)
    (resolved : context.Resolved bindings script.program) {symbol : Nat} {name : String}
    (beyond : arenaSize ≤ symbol) (listed : script.program.symbols[symbol]? = some name) :
    bindings.slot? symbol = none := by
  rw [resolved.slot_eq listed, bound]
  refine bindNames_overflow .empty #[] (symbols_nodup compiled) (fun name _ => ?_) listed ?_
  · exact Arena.address?_empty name
  · exact Nat.le_trans beyond (Nat.le_add_left symbol _)

/-- A name without a slot reads as zero, and what is stored to it is lost. -/
theorem Machine.Context.Resolved.unbound {context : Context} {bindings : Bindings}
    {program : Program} (resolved : context.Resolved bindings program) {symbol : Nat}
    {name : String} (listed : program.symbols[symbol]? = some name)
    (absent : bindings.slot? symbol = none) :
    context.arena.get name = 0.0 ∧
      (∀ value, (context.arena.set name value).value = context.arena) ∧
      context.readVar bindings (.named name symbol) = 0.0 ∧
      ∀ op value, context.assignVar bindings (.named name symbol) op value = context := by
  have unbound : context.arena.address? name = none := by
    rw [← resolved.slot_eq listed, absent]
  have full := resolved.full listed unbound
  exact ⟨Arena.get_of_unbound unbound, Arena.set_of_full unbound full,
    by simp [Context.readVar, absent], by simp [Context.assignVar, absent]⟩

/-- An interpreter with a compiled script gives every reply, and leaves every context, that
evaluation by name gives and leaves; names beyond the last cell always read as zero and never hold
anything. -/
theorem trace_install_eq_byName {source : String} {script : Script}
    (compiled : (Script.compile source).value = .ok script) (interpreter : Interpreter)
    (requests : List Request) :
    ∃ context bindings,
      (interpreter.install script).value = ⟨context, some ⟨script, bindings⟩, .fresh⟩ ∧
      (interpreter.install script).value.trace requests =
        (Runner.byName script).trace context requests ∧
      ∀ symbol name, arenaSize ≤ symbol → script.program.symbols[symbol]? = some name →
        ∀ outcome ∈ (Runner.byName script).trace context requests,
          outcome.2.arena.get name = 0.0 ∧
          (∀ value, (outcome.2.arena.set name value).value = outcome.2.arena) ∧
          outcome.2.readVar bindings (.named name symbol) = 0.0 ∧
          ∀ op value, outcome.2.assignVar bindings (.named name symbol) op value = outcome.2 := by
  obtain ⟨context, bindings, installed, bound, resolved⟩ :=
    interpreter.install_resolves script
  obtain ⟨same, kept⟩ := (Runner.agree_byName compiled bindings).trace resolved requests
  refine ⟨context, bindings, installed, ?_, fun symbol name beyond listed outcome member => ?_⟩
  · rw [installed, Interpreter.trace_eq_runner, same]
  · rw [← same] at member
    have absent := Interpreter.slot?_overflow compiled bound resolved beyond listed
    exact (kept outcome member).unbound listed absent

/-- A script with two variables and a call, driven through every kind of request but blocks. -/
theorem trace_install_eq_byName_gain :
    ∃ script,
      (Script.compile "@init g = max(slider1, x);\n@sample spl0 *= g; x = spl0;").value =
        .ok script ∧
      ∃ context bindings,
        (Interpreter.fresh.install script).value = ⟨context, some ⟨script, bindings⟩, .fresh⟩ ∧
        (Interpreter.fresh.install script).value.trace
            [.setParameter 0 2.0, .runInit, .allocateArray "x" 3, .runSample 0.5 0.25,
              .setVariable "g" 4.0, .runSample 0.5 0.25] =
          (Runner.byName script).trace context
            [.setParameter 0 2.0, .runInit, .allocateArray "x" 3, .runSample 0.5 0.25,
              .setVariable "g" 4.0, .runSample 0.5 0.25] := by
  have accepted : (Script.compile
      "@init g = max(slider1, x);\n@sample spl0 *= g; x = spl0;").value.isOk = true := by
    decide +kernel
  cases compiled : (Script.compile
      "@init g = max(slider1, x);\n@sample spl0 *= g; x = spl0;").value with
  | error cause =>
    rw [compiled] at accepted
    contradiction
  | ok script =>
    obtain ⟨context, bindings, installed, same, _⟩ :=
      trace_install_eq_byName compiled Interpreter.fresh
        [.setParameter 0 2.0, .runInit, .allocateArray "x" 3, .runSample 0.5 0.25,
          .setVariable "g" 4.0, .runSample 0.5 0.25]
    exact ⟨script, rfl, context, bindings, installed, same⟩

end EffectScript
