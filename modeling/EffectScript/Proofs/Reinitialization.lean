import EffectScript.Proofs.ExposedReads
import EffectScript.Proofs.NameCells

/-!
# Initializing again

Initializing zeroes the arena and runs the init section; the sliders, the frame, the sample rate and
the transport belong to the host and stay as they are.  So a second initialization finds the arena
that the first one found, and leaves the arena that the first one left, if the host variables that
the init section reads as it finds them stand again where they stood.
-/

namespace EffectScript

open EffectScript.Language Machine Script

namespace Language

theorem Var.eq_host_of_unnumbered {var : Var} {host : HostVar}
    (same : var.unnumbered = .host host) : var = .host host := by
  cases var with
  | host => exact same
  | named => contradiction

theorem Var.exists_named_of_unnumbered {var : Var} {name : String}
    (same : var.unnumbered = .named name 0) : ∃ symbol, var = .named name symbol := by
  cases var with
  | host => contradiction
  | named name symbol =>
    obtain ⟨rfl, _⟩ := Var.named.inj same
    exact ⟨symbol, rfl⟩

end Language

namespace Machine

namespace Arena

theorem clear_clear (arena : Arena) : arena.clear.clear = arena.clear := rfl

theorem names_clear (arena : Arena) : arena.clear.names = arena.names := rfl

theorem names_write (arena : Arena) (address : Nat) (value : Float) :
    (arena.write address value).names = arena.names := rfl

theorem address?_write_clear (arena : Arena) (address : Nat) (value : Float) (name : String) :
    (arena.clear.write address value).address? name = arena.address? name := by
  rw [address?, names_write, names_clear, address?]

theorem get_write_clear {arena : Arena} {name : String} {address : Nat}
    (address? : arena.address? name = some address) (bound : address < arenaSize) (value : Float) :
    (arena.clear.write address value).get name = value := by
  rw [get_of_bound ((address?_write_clear arena address value name).trans address?)]
  simp [read, write, bound]

end Arena

/-- Names and arrays keep their places. -/
theorem clear_evalAll (bindings : Bindings) (last : Float) (nodes : List Node)
    (context : Context) :
    (evalAll bindings last nodes context).2.arena.clear = context.arena.clear := by
  have itself : Context.Alike context.arena.clear (fun _ => True) context context :=
    ⟨rfl, rfl, fun _ _ => rfl⟩
  exact (evalAll_carries last nodes (fun _ _ => trivial) context context itself).2.laidOut

/-- Trees that run from a zeroed arena, and find again the host variables that they read as found,
leave the same arena again. -/
theorem arena_evalAll_again (bindings : Bindings) (last : Float) (nodes : List Node)
    {before after : Context} (zeroed : before.arena.clear = before.arena)
    (ran : (evalAll bindings last nodes before).2 = after)
    (stands : ∀ var ∈ exposesAll nodes, after.host? var = before.host? var) :
    (evalAll bindings last nodes { after with arena := after.arena.clear }).2.arena =
      after.arena := by
  have places : after.arena.clear = before.arena.clear := by
    rw [← ran, clear_evalAll]
  have alike : Context.Alike before.arena (· ∈ exposesAll nodes)
      { after with arena := after.arena.clear } before := by
    refine ⟨places.trans zeroed, ?_, fun var exposed => ?_⟩
    · exact (congrArg Arena.clear (places.trans zeroed)).trans zeroed
    · rw [← stands var exposed]
      cases var <;> rfl
  rw [(evalAll_carries last nodes (fun _ => id) _ _ alike).2.arena, ran]

end Machine

/-! ### Running the init section -/

namespace Interpreter

theorem runInit_of_body {installed : Installed} {body : List Node}
    (found : installed.script.body? .init = some body) (context : Context)
    (cpu : Control.CpuMeter) :
    runInit ⟨context, some installed, cpu⟩ =
      ⟨(evalAll installed.bindings 0.0 body { context with arena := context.arena.clear }).2,
        some installed, cpu⟩ := by
  rw [runInit, run, Installed.run, found]

theorem arena_runInit_of_no_body {interpreter : Interpreter}
    (absent : interpreter.body? .init = none) :
    interpreter.runInit.context.arena = interpreter.context.arena.clear := by
  obtain ⟨context, installed, cpu⟩ := interpreter
  cases installed with
  | none => rfl
  | some installed =>
    have none : installed.script.body? .init = none := absent
    rw [runInit, run, Installed.run, none]

theorem body?_runInit (interpreter : Interpreter) (kind : SectionKind) :
    interpreter.runInit.body? kind = interpreter.body? kind := by
  obtain ⟨context, installed, cpu⟩ := interpreter
  cases installed <;> rfl

/-- Initializing again leaves every variable as initializing once does, if each host variable that
the init section may read as it finds it has after the first time the value that it had before. -/
theorem variableValue_runInit_runInit (interpreter : Interpreter)
    (stands : ∀ body, interpreter.body? .init = some body → ∀ var ∈ exposesAll body,
      interpreter.runInit.context.host? var = interpreter.context.host? var) (name : String) :
    interpreter.runInit.runInit.variableValue name = interpreter.runInit.variableValue name := by
  refine congrArg (fun arena : Arena => arena.get name) ?_
  cases found : interpreter.body? .init with
  | none =>
    have again := (interpreter.body?_runInit .init).trans found
    rw [arena_runInit_of_no_body again, arena_runInit_of_no_body found, Arena.clear_clear]
  | some body =>
    obtain ⟨context, installed, cpu⟩ := interpreter
    cases installed with
    | none => contradiction
    | some installed =>
      have present : installed.script.body? .init = some body := found
      have hosts := stands body found
      rw [runInit_of_body present] at hosts ⊢
      rw [runInit_of_body present]
      refine arena_evalAll_again _ _ _ context.arena.clear_clear rfl fun var exposed => ?_
      rw [hosts var exposed]
      cases var <;> rfl

theorem value_load {source : String} {script : Script}
    (compiled : (Script.compile source).value = .ok script) (interpreter : Interpreter) :
    (interpreter.load source).value = (true, (interpreter.install script).value) := by
  rw [load, Logged.value_bind, compiled]
  rfl

/-! ### Init sections of two copies -/

/-- Copy one variable to another. -/
def copy (target source : Var) : Node := .assign .set (.var target) (.var source)

/-- The variables of a copy, without the numbers of names. -/
def copied? : Node → Option (Var × Var)
  | .assign .set (.var target) (.var source) => some (target.unnumbered, source.unnumbered)
  | _ => none

theorem eq_copy_of_copied? {node : Node} {pair : Var × Var}
    (copied : copied? node = some pair) :
    ∃ target source, node = copy target source ∧
      (target.unnumbered, source.unnumbered) = pair := by
  rw [copied?.eq_def] at copied
  split at copied
  · exact ⟨_, _, rfl, Option.some.inj copied⟩
  · contradiction

/-- What the init section of a source copies, statement by statement.  The numbers of its variables
are a matter of the table of symbols, and are left open. -/
def initCopies? (source : String) : Option (List (Option (Var × Var))) :=
  (Script.compile source).value.toOption.bind fun script =>
    (script.body? .init).map (List.map copied?)

theorem exists_pair_of_initCopies? {source : String} {first second : Var × Var}
    (copies : initCopies? source = some [some first, some second]) :
    ∃ script body, (Script.compile source).value = .ok script ∧
      script.body? .init = some body ∧
      ∃ target source nextTarget nextSource,
        body = [copy target source, copy nextTarget nextSource] ∧
        (target.unnumbered, source.unnumbered) = first ∧
        (nextTarget.unnumbered, nextSource.unnumbered) = second := by
  rw [initCopies?] at copies
  cases compiled : (Script.compile source).value with
  | error cause => simp [compiled, Except.toOption] at copies
  | ok script =>
    simp only [compiled, Except.toOption, Option.bind_some, Option.map_eq_some_iff] at copies
    obtain ⟨body, found, copies⟩ := copies
    obtain ⟨one, rest, rfl, copied, copies⟩ := List.map_eq_cons_iff.1 copies
    obtain ⟨other, rfl, copiedNext⟩ := List.map_eq_singleton_iff.1 copies
    obtain ⟨target, source, rfl, same⟩ := eq_copy_of_copied? copied
    obtain ⟨nextTarget, nextSource, rfl, sameNext⟩ := eq_copy_of_copied? copiedNext
    exact ⟨script, _, rfl, found, target, source, nextTarget, nextSource, rfl, same, sameNext⟩

theorem eval_copy (bindings : Bindings) (target source : Var) (context : Context) :
    (eval bindings (copy target source) context).2 =
      context.assignVar bindings target .set (context.readVar bindings source) := by
  simp only [copy, eval]
  rfl

theorem evalAll_pair (bindings : Bindings) (last : Float) (first second : Node)
    (context : Context) :
    (evalAll bindings last [first, second] context).2 =
      (eval bindings second (eval bindings first context).2).2 := by
  simp only [evalAll]
  rfl

/-- The sample that the section reads is the one that it has stored. -/
theorem variableValue_runInit_runInit_rate :
    ∃ interpreter, (fresh.load "@init spl0 = srate; x = spl0;").value = (true, interpreter) ∧
      ∀ name, interpreter.runInit.runInit.variableValue name =
        interpreter.runInit.variableValue name := by
  have copies : initCopies? "@init spl0 = srate; x = spl0;" =
      some [some (.host .spl0, .host .srate), some (.named "x" 0, .host .spl0)] := by
    decide +kernel
  obtain ⟨script, body, compiled, present, _, _, _, _, rfl, same, sameNext⟩ :=
    exists_pair_of_initCopies? copies
  obtain ⟨rfl, rfl⟩ :=
    (Prod.mk.inj same).imp Var.eq_host_of_unnumbered Var.eq_host_of_unnumbered
  obtain ⟨⟨symbol, rfl⟩, rfl⟩ :=
    (Prod.mk.inj sameNext).imp Var.exists_named_of_unnumbered Var.eq_host_of_unnumbered
  refine ⟨_, value_load compiled fresh, variableValue_runInit_runInit _ ?_⟩
  intro body found var exposed
  obtain rfl := Option.some.inj (present.symm.trans found)
  obtain rfl : var = .srate := by
    simpa [copy, Node.hostVar, behind] using exposed
  obtain ⟨context, bindings, installed, _⟩ := fresh.install_resolves script
  rw [installed, runInit_of_body present, evalAll_pair, eval_copy, eval_copy,
    Context.host?_assignVar_named, Context.host?_assignVar_of_ne _ (by decide)]
  rfl

/-! ### A section that replaces what it reads -/

/-- Copy the tempo to a variable, and replace it by the sample rate. -/
def saveThenReplace (name : String) (symbol : Nat) : List Node :=
  [copy (.named name symbol) (.host .tempo), copy (.host .tempo) (.host .srate)]

section SaveThenReplace

variable {bindings : Bindings} {symbol address : Nat} (slot : bindings.slot? symbol = some address)
include slot

theorem evalAll_saveThenReplace (name : String) (context : Context) :
    (evalAll bindings 0.0 (saveThenReplace name symbol) context).2 =
      { context with
        arena := context.arena.write address context.transport.tempo
        transport := { context.transport with tempo := context.srate } } := by
  rw [saveThenReplace, evalAll_pair, eval_copy, eval_copy, Context.assignVar, Context.assignVar,
    slot]
  rfl

theorem runInit_saveThenReplace {script : Script} {name : String}
    (found : script.body? .init = some (saveThenReplace name symbol)) (context : Context)
    (cpu : Control.CpuMeter) :
    runInit ⟨context, some ⟨script, bindings⟩, cpu⟩ =
      ⟨{ context with
          arena := context.arena.clear.write address context.transport.tempo
          transport := { context.transport with tempo := context.srate } },
        some ⟨script, bindings⟩, cpu⟩ := by
  rw [runInit_of_body found, evalAll_saveThenReplace slot]

/-- The variable has the tempo after the first time, and the sample rate after the second. -/
theorem variableValue_saveThenReplace {script : Script} {name : String}
    (found : script.body? .init = some (saveThenReplace name symbol)) {context : Context}
    (address? : context.arena.address? name = some address) (bound : address < arenaSize)
    (cpu : Control.CpuMeter) :
    (runInit ⟨context, some ⟨script, bindings⟩, cpu⟩).variableValue name =
        context.transport.tempo ∧
      (runInit ⟨context, some ⟨script, bindings⟩, cpu⟩).runInit.variableValue name =
        context.srate := by
  have kept :=
    (context.arena.address?_write_clear address context.transport.tempo name).trans address?
  rw [runInit_saveThenReplace slot found, runInit_saveThenReplace slot found]
  exact ⟨Arena.get_write_clear address? bound _, Arena.get_write_clear kept bound _⟩

end SaveThenReplace

theorem compile_saveThenReplace :
    ∃ script symbol, (Script.compile "@init x = tempo; tempo = srate;").value = .ok script ∧
      script.body? .init = some (saveThenReplace "x" symbol) ∧
      (mentionsAll script.program.items).length = 5 := by
  have count : ((Script.compile "@init x = tempo; tempo = srate;").value.toOption.map fun script =>
      (mentionsAll script.program.items).length) = some 5 := by
    decide +kernel
  have copies : initCopies? "@init x = tempo; tempo = srate;" =
      some [some (.named "x" 0, .host .tempo), some (.host .tempo, .host .srate)] := by
    decide +kernel
  obtain ⟨script, body, compiled, found, _, _, _, _, rfl, same, sameNext⟩ :=
    exists_pair_of_initCopies? copies
  obtain ⟨⟨symbol, rfl⟩, rfl⟩ :=
    (Prod.mk.inj same).imp Var.exists_named_of_unnumbered Var.eq_host_of_unnumbered
  obtain ⟨rfl, rfl⟩ :=
    (Prod.mk.inj sameNext).imp Var.eq_host_of_unnumbered Var.eq_host_of_unnumbered
  simp only [compiled, Except.toOption, Option.map_some, Option.some.injEq] at count
  exact ⟨script, symbol, compiled, found, count⟩

/-- What the section saves the second time is not what it saves the first time. -/
theorem variableValue_runInit_runInit_ne :
    ∃ interpreter, (fresh.load "@init x = tempo; tempo = srate;").value = (true, interpreter) ∧
      interpreter.runInit.runInit.variableValue "x" ≠ interpreter.runInit.variableValue "x" := by
  obtain ⟨script, symbol, compiled, found, count⟩ := compile_saveThenReplace
  obtain ⟨context, bindings, installed, cell⟩ :=
    exists_cell_install compiled (by rw [count]; decide) fresh
  have listed := body_listed compiled found (.symbol "x" symbol)
    (by simp [saveThenReplace, copy, Var.mention])
  obtain ⟨address, bound, slot, address?⟩ := cell symbol "x" listed
  have values := variableValue_saveThenReplace slot found address? bound .fresh
  have rate : context.srate = 48000.0 :=
    (congrArg (fun interpreter : Interpreter => interpreter.context.srate) installed).symm
  have tempo : context.transport.tempo = 120.0 :=
    (congrArg (fun interpreter : Interpreter => interpreter.context.transport.tempo)
      installed).symm
  refine ⟨_, value_load compiled fresh, ?_⟩
  rw [installed, values.1, values.2, rate, tempo]
  decide

end Interpreter

end EffectScript
