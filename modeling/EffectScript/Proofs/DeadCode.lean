import EffectScript.Proofs.LayoutIndependence
import EffectScript.Proofs.Reinitialization
import Mathlib.Data.List.Forall2
import Mathlib.Data.List.Induction

/-!
# Code that never runs

Of all that stands in a source, only the last section of each of four kinds ever runs.  Graphics,
sections with other names, earlier sections of the same kind and statements outside any section show
in the numbers of the names and in the cells that these occupy, and a host sees neither.  So two
scripts with the same initial sliders and the same sections that run answer all requests alike.
-/

namespace EffectScript

namespace Language

/-- The statements of the last section with a marker. -/
def Program.lastSection? (program : Program) (marker : String) : Option (List Node) :=
  program.sections.reverse.lookup marker

end Language

open EffectScript.Language Machine Script

/-! ### The last section counts -/

namespace Script

theorem SectionKind.name_of_ofName? {name : String} {kind : SectionKind}
    (known : ofName? name = some kind) : kind.name = name := by
  unfold ofName? at known
  split at known <;> cases known <;> rfl

/-- The section table holds the last section of each kind. -/
theorem Sections.get?_ofItems (items : List Node) (kind : SectionKind)
    (symbols functions : List String) :
    (ofItems items).get? kind = Program.lastSection? ⟨items, symbols, functions⟩ kind.name := by
  induction items using List.reverseRecOn with
  | nil => cases kind <;> rfl
  | append_singleton items item ih =>
    rw [ofItems, List.foldl_append, List.foldl_cons, List.foldl_nil, ← ofItems]
    unfold Program.lastSection? Program.sections at ih ⊢
    rw [List.filterMap_append, List.reverse_append]
    cases item with
    | sectionOf name body =>
      simp only [List.filterMap_cons, List.filterMap_nil, List.reverse_singleton,
        List.singleton_append, List.lookup_cons]
      by_cases named : kind.name = name
      · subst named
        simp [withItem, get?_insert]
      · rw [beq_eq_false_iff_ne.2 named, ← ih, withItem]
        split
        · rename_i other known
          have different : kind ≠ other := by
            rintro rfl
            exact named (SectionKind.name_of_ofName? known)
          rw [get?_insert, if_neg different]
        · rfl
    | _ => exact ih

theorem body?_eq_lastSection? {source : String} {script : Script}
    (compiled : (compile source).value = .ok script) (kind : SectionKind) :
    script.body? kind = script.program.lastSection? kind.name := by
  rw [body?, (compile_ok compiled).2, Sections.get?_ofItems]

end Script

/-! ### Runners side by side -/

/-- The sections that run. -/
def Script.SectionKind.live : List SectionKind := [init, slider, sample, block]

/-- Whether a request leaves the names and arrays of the arena as they are. -/
def Request.keepsLayout : Request → Bool
  | .setVariable _ _ | .allocateArray _ _ => false
  | _ => true

namespace Runner

/-- Two runners lead from related contexts to related contexts, which look alike to a host. -/
structure Beside (relation : Context → Context → Prop) (first second : Runner) : Prop where
  seen {context other : Context} : relation context other → context.SeenAlike other
  has_eq {kind : SectionKind} : kind ∈ SectionKind.live → first.has kind = second.has kind
  run {kind : SectionKind} {context other : Context} : kind ∈ SectionKind.live →
    relation context other → relation (first.run kind context) (second.run kind other)
  setHost {context other : Context} (var : HostVar) (value : Float) :
    relation context other → relation (context.setHost var value) (other.setHost var value)
  clear {context other : Context} : relation context other →
    relation { context with arena := context.arena.clear }
      { other with arena := other.arena.clear }

namespace Beside

variable {relation : Context → Context → Prop} {first second : Runner}
  (beside : Beside relation first second)

include beside

theorem frame {context other : Context} (related : relation context other) (left right : Float) :
    (first.frame left right context).1 = (second.frame left right other).1 ∧
      relation (first.frame left right context).2 (second.frame left right other).2 := by
  have started := beside.setHost .spl1 right (beside.setHost .spl0 left related)
  have run := beside.run (by decide : SectionKind.sample ∈ SectionKind.live) started
  have leftEq := Option.some.inj ((beside.seen run).host_eq .spl0)
  have rightEq := Option.some.inj ((beside.seen run).host_eq .spl1)
  exact ⟨Prod.ext leftEq rightEq, run⟩

theorem stereoFrame (index : Nat) {state other : Context × Audio.Buffer}
    (related : relation state.1 other.1 ∧ state.2 = other.2) :
    relation (first.stereoFrame index state).1 (second.stereoFrame index other).1 ∧
      (first.stereoFrame index state).2 = (second.stereoFrame index other).2 := by
  obtain ⟨same, kept⟩ := beside.frame related.1 (state.2.sample 0 index).toFloat
    (state.2.sample 1 index).toFloat
  simp only [Runner.stereoFrame, ← related.2, ← same]
  exact ⟨kept, trivial⟩

theorem monoFrame (index : Nat) {state other : Context × Audio.Buffer}
    (related : relation state.1 other.1 ∧ state.2 = other.2) :
    relation (first.monoFrame index state).1 (second.monoFrame index other).1 ∧
      (first.monoFrame index state).2 = (second.monoFrame index other).2 := by
  obtain ⟨same, kept⟩ := beside.frame related.1 (state.2.sample 0 index).toFloat
    (state.2.sample 0 index).toFloat
  simp only [Runner.monoFrame, ← related.2, ← same]
  exact ⟨kept, trivial⟩

theorem frames (count : Nat) {context other : Context} (related : relation context other)
    (buffer : Audio.Buffer) :
    relation (first.frames count (context, buffer)).1 (second.frames count (other, buffer)).1 ∧
      (first.frames count (context, buffer)).2 = (second.frames count (other, buffer)).2 := by
  unfold Runner.frames
  dsimp only
  split
  · exact fold_related
      (fun state other : Context × Audio.Buffer => relation state.1 other.1 ∧ state.2 = other.2)
      (fun index _ _ _ => beside.stereoFrame index) ⟨related, rfl⟩
  · exact fold_related
      (fun state other : Context × Audio.Buffer => relation state.1 other.1 ∧ state.2 = other.2)
      (fun index _ _ _ => beside.monoFrame index) ⟨related, rfl⟩

/-- A request gets the same reply from both, and leaves related contexts. -/
theorem answer {context other : Context} (related : relation context other) {request : Request}
    (keeps : request.keepsLayout = true) :
    (first.answer context request).1 = (second.answer other request).1 ∧
      relation (first.answer context request).2 (second.answer other request).2 := by
  cases request with
  | runInit => exact ⟨rfl, beside.run (by decide) (beside.clear related)⟩
  | runSlider => exact ⟨rfl, beside.run (by decide) related⟩
  | runSample left right =>
    obtain ⟨same, kept⟩ := beside.frame related left right
    simp only [Runner.answer, ← beside.has_eq (by decide : SectionKind.sample ∈ SectionKind.live)]
    split
    · exact ⟨by rw [same], kept⟩
    · exact ⟨rfl, related⟩
  | runBlock buffer =>
    have block := beside.run (by decide : SectionKind.block ∈ SectionKind.live) related
    obtain ⟨kept, same⟩ := beside.frames buffer.samples block buffer
    simp only [Runner.answer, ← beside.has_eq (by decide : SectionKind.sample ∈ SectionKind.live)]
    split
    · exact ⟨rfl, related⟩
    · split
      · exact ⟨by rw [same], kept⟩
      · exact ⟨rfl, block⟩
  | setParameter index value =>
    have stored := beside.setHost (.slider index) value related
    simp only [Runner.answer]
    split
    · exact ⟨rfl, beside.run (by decide) stored⟩
    · exact ⟨rfl, stored⟩
  | storeParameter index value => exact ⟨rfl, beside.setHost (.slider index) value related⟩
  | setVariable name value => contradiction
  | allocateArray name size => contradiction
  | setSampleRate rate => exact ⟨rfl, beside.setHost .srate rate related⟩

/-- Both reply alike to all requests, and a host sees the same after each of them. -/
theorem trace {context other : Context} (related : relation context other)
    {requests : List Request} (keeps : ∀ request ∈ requests, request.keepsLayout = true) :
    List.Forall₂ (fun outcome twin => outcome.1 = twin.1 ∧ outcome.2.SeenAlike twin.2)
      (first.trace context requests) (second.trace other requests) := by
  induction requests generalizing context other with
  | nil => exact .nil
  | cons request rest ih =>
    obtain ⟨same, kept⟩ := beside.answer related (keeps request List.mem_cons_self)
    refine .cons ⟨same, beside.seen kept⟩ (ih kept fun later member => ?_)
    exact keeps later (List.mem_cons_of_mem _ member)

end Beside

/-- Scripts with the same sections that run, up to numbers, run beside each other wherever the names
that both scripts list are housed. -/
theorem beside_byName {firstSource secondSource : String} {first second : Script}
    (compiled : (compile firstSource).value = .ok first)
    (compiledOther : (compile secondSource).value = .ok second)
    (live : ∀ kind ∈ SectionKind.live,
      (first.body? kind).map unnumberedAll = (second.body? kind).map unnumberedAll) :
    Beside
      (Context.Beside fun name => name ∈ first.program.symbols ∧ name ∈ second.program.symbols)
      (byName first) (byName second) where
  seen related := related.seen
  has_eq {kind} member := by
    have same := congrArg Option.isSome (live kind member)
    rwa [Option.isSome_map, Option.isSome_map] at same
  run {kind context other} member related := by
    have same := live kind member
    simp only [byName]
    cases found : first.body? kind with
    | none =>
      have missing : second.body? kind = none := by simpa [found] using same.symm
      simpa only [missing] using related
    | some body =>
      obtain ⟨twin, foundOther, unnumbered⟩ :
          ∃ twin, second.body? kind = some twin ∧ unnumberedAll twin = unnumberedAll body := by
        simpa [found] using same.symm
      simp only [foundOther]
      rw [← ByName.evalAll_unnumberedAll 0.0 body, ← ByName.evalAll_unnumberedAll 0.0 twin,
        unnumbered]
      refine (ByName.evalAll_respects 0.0 (unnumberedAll body) ?_ context other related).2
      intro name number mentioned
      obtain ⟨symbol, inBody⟩ := exists_symbol_of_unnumberedAll mentioned
      rw [← unnumbered] at mentioned
      obtain ⟨symbolOther, inTwin⟩ := exists_symbol_of_unnumberedAll mentioned
      exact ⟨List.mem_of_getElem? (body_listed compiled found _ inBody),
        List.mem_of_getElem? (body_listed compiledOther foundOther _ inTwin)⟩
  setHost var value related := related.setHost var value
  clear related := related.clear

end Runner

/-! ### Installed scripts -/

namespace Interpreter

theorem region?_bindNames {arena : Arena} (none : ∀ name, arena.region? name = none)
    (slots : Array (Option Nat)) (names : List String) (array : String) :
    (bindNames arena slots names).value.2.region? array = .none := by
  induction names generalizing arena slots with
  | nil => exact none array
  | cons name rest ih =>
    rw [bindNames_cons]
    refine ih (fun other => ?_) _
    rcases arena.bind_cases name with ⟨_, _, outcome⟩ | ⟨_, _, outcome⟩ | ⟨_, _, outcome⟩ <;>
      rw [outcome] <;> exact none other

/-- Binding names that there are cells for houses all of them. -/
theorem houses_bindNames {symbols : List String} (room : symbols.length ≤ arenaSize) :
    (bindNames .empty #[] symbols).value.2.Houses (· ∈ symbols) where
  separated := separated_bindNames Arena.separated_empty #[] symbols
  bound member := exists_address_bindNames #[] ((Nat.zero_add _).trans_le room) member
  region?_eq := region?_bindNames Arena.region?_empty #[] symbols

theorem cells_bindNames (arena : Arena) (slots : Array (Option Nat)) (names : List String) :
    (bindNames arena slots names).value.2.cells = arena.cells := by
  induction names generalizing arena slots with
  | nil => rfl
  | cons name rest ih =>
    rw [bindNames_cons, ih]
    rcases arena.bind_cases name with ⟨_, _, outcome⟩ | ⟨_, _, outcome⟩ | ⟨_, _, outcome⟩ <;>
      rw [outcome]

theorem get_bindNames (names : List String) (name : String) :
    (bindNames .empty #[] names).value.2.get name = 0.0 := by
  have cleared : (bindNames .empty #[] names).value.2.clear =
      (bindNames .empty #[] names).value.2 := by
    have zeros : (bindNames .empty #[] names).value.2.cells = Arena.zeroCells :=
      cells_bindNames .empty #[] names
    rw [Arena.clear, ← zeros]
  rw [← cleared, Arena.get_clear]

/-- Scripts with the same initial sliders that fit into the arena look alike when installed. -/
theorem beside_install {first second : Script}
    (room : first.program.symbols.length ≤ arenaSize)
    (roomOther : second.program.symbols.length ≤ arenaSize)
    (sliders : first.info.initialValues = second.info.initialValues) :
    Context.Beside (fun name => name ∈ first.program.symbols ∧ name ∈ second.program.symbols)
      (fresh.install first).value.context (fresh.install second).value.context := by
  have houses := houses_bindNames room
  have housesOther := houses_bindNames roomOther
  refine ⟨⟨fun var => ?_, fun name => ?_⟩,
    ⟨houses.separated, fun member => houses.bound member.1, houses.region?_eq⟩,
    ⟨housesOther.separated, fun member => housesOther.bound member.2, housesOther.region?_eq⟩⟩
  · cases var with
    | slider index =>
      exact congrArg (fun values => (Context.fresh.loadSliders values).sliders[index]?) sliders
    | _ => rfl
  · exact (get_bindNames _ name).trans (get_bindNames _ name).symm

/-- An installed script that compiled answers as evaluation by name does. -/
theorem trace_install {source : String} {script : Script}
    (compiled : (Script.compile source).value = .ok script) (requests : List Request) :
    (fresh.install script).value.trace requests =
      (Runner.byName script).trace (fresh.install script).value.context requests := by
  obtain ⟨context, bindings, installed, _, resolved⟩ := fresh.install_resolves script
  rw [installed, trace_eq_runner]
  exact ((Runner.agree_byName compiled bindings).trace resolved requests).1

end Interpreter

/-- Code that never runs makes no difference.  Take two sources that compile to scripts with the
same initial sliders and no more names than there are cells, and whose last init, slider, sample and
block sections are the same up to the numbers of names, or absent from both.  Once installed they
look alike, reply alike to all requests of a host that declare no array, and look alike after each
of them. -/
theorem answers_alike_of_live_sections {firstSource secondSource : String} {first second : Script}
    (compiled : (compile firstSource).value = .ok first)
    (compiledOther : (compile secondSource).value = .ok second)
    (room : first.program.symbols.length ≤ arenaSize)
    (roomOther : second.program.symbols.length ≤ arenaSize)
    (sliders : first.info.initialValues = second.info.initialValues)
    (live : ∀ kind ∈ SectionKind.live,
      (first.program.lastSection? kind.name).map unnumberedAll =
        (second.program.lastSection? kind.name).map unnumberedAll)
    {requests : List Request} (keeps : ∀ request ∈ requests, request.keepsLayout = true) :
    let installed := (Interpreter.fresh.install first).value
    let other := (Interpreter.fresh.install second).value
    installed.context.SeenAlike other.context ∧
      List.Forall₂ (fun outcome twin => outcome.1 = twin.1 ∧ outcome.2.SeenAlike twin.2)
        (installed.trace requests) (other.trace requests) := by
  intro installed other
  have start := Interpreter.beside_install room roomOther sliders
  have runners := Runner.beside_byName compiled compiledOther fun kind member => by
    rw [body?_eq_lastSection? compiled, body?_eq_lastSection? compiledOther]
    exact live kind member
  refine ⟨start.seen, ?_⟩
  rw [Interpreter.trace_install compiled, Interpreter.trace_install compiledOther]
  exact runners.trace start keeps

/-! ### A plain source and a cluttered one -/

/-- A script that copies the left channel to the right through a variable. -/
def plainSource : String :=
  "slider1:1<0,1>A\n@init g = srate;\n@sample h = spl0; spl1 = h;"

/-- The same among statements outside sections, graphics, an unknown section and an earlier sample
section, which all name other variables first. -/
def clutteredSource : String :=
  "slider1:1<0,2>B\nu = h;\n@gfx w = u;\n@sample spl0 = z;\n@map y = g;\n" ++
    "@sample h = spl0; spl1 = h;\n@init g = srate;"

/-- What can be told of a script whose sections copy variables without looking at the numbers of its
names, which are a matter of the table of symbols. -/
structure Script.Outline where
  /-- Number of mentions. -/
  mentions : Nat
  sliders : List (Nat × Float)
  /-- What the sections that run copy, statement by statement. -/
  copies : List (Option (List (Option (Var × Var))))
  deriving DecidableEq

/-- The outline of a script. -/
def Script.outline (script : Script) : Outline where
  mentions := (mentionsAll script.program.items).length
  sliders := script.info.initialValues
  copies := SectionKind.live.map fun kind =>
    (script.program.lastSection? kind.name).map (List.map Interpreter.copied?)

/-- Sections that copy the same variables are the same up to numbers. -/
theorem unnumberedAll_eq_of_copied? {body other : List Node}
    (same : body.map Interpreter.copied? = other.map Interpreter.copied?)
    (copies : none ∉ body.map Interpreter.copied?) :
    unnumberedAll body = unnumberedAll other := by
  induction body generalizing other with
  | nil => rw [List.map_eq_nil_iff.1 same.symm]
  | cons node rest ih =>
    obtain ⟨twin, later, rfl, head, tail⟩ := List.map_eq_cons_iff.1 same.symm
    rw [List.map_cons, List.mem_cons, not_or] at copies
    obtain ⟨pair, copied⟩ := Option.ne_none_iff_exists.1 (Ne.symm copies.1)
    obtain ⟨target, source, rfl, pairEq⟩ := Interpreter.eq_copy_of_copied? copied.symm
    obtain ⟨target', source', rfl, pairEq'⟩ :=
      Interpreter.eq_copy_of_copied? (head.trans copied.symm)
    obtain ⟨targets, sources⟩ := Prod.mk.inj (pairEq.trans pairEq'.symm)
    simp only [unnumberedAll, Interpreter.copy, Node.unnumbered, targets, sources,
      ih tail.symm copies.2]

/-- Scripts that copy the same variables in the sections that run have the same such sections. -/
theorem Script.live_eq_of_copies {first second : Script}
    (same : first.outline.copies = second.outline.copies)
    (copies : ∀ statements, some statements ∈ first.outline.copies → none ∉ statements) :
    ∀ kind ∈ SectionKind.live,
      (first.program.lastSection? kind.name).map unnumberedAll =
        (second.program.lastSection? kind.name).map unnumberedAll := by
  intro kind member
  simp only [outline] at same
  have copied := List.map_inj_left.1 same kind member
  cases found : first.program.lastSection? kind.name with
  | none =>
    rw [found, Option.map_none] at copied
    rw [Option.map_eq_none_iff.1 copied.symm]
  | some body =>
    rw [found, Option.map_some] at copied
    obtain ⟨other, foundOther, sameBody⟩ := Option.map_eq_some_iff.1 copied.symm
    have listed : some (body.map Interpreter.copied?) ∈ first.outline.copies :=
      List.mem_map.2 ⟨kind, member, by rw [found, Option.map_some]⟩
    rw [foundOther, Option.map_some, Option.map_some,
      unnumberedAll_eq_of_copied? sameBody.symm (copies _ listed)]

theorem Script.exists_of_outline {source : String} {outline : Outline}
    (told : (compile source).value.toOption.map Script.outline = some outline) :
    ∃ script, (compile source).value = .ok script ∧ script.outline = outline := by
  cases compiled : (compile source).value with
  | error cause => simp [compiled, Except.toOption] at told
  | ok script => exact ⟨script, rfl, by simpa [compiled, Except.toOption] using told⟩

theorem answers_alike_of_live_sections_cluttered :
    ∃ first second, (compile plainSource).value = .ok first ∧
      (compile clutteredSource).value = .ok second ∧
      (mentionsAll first.program.items).length = 8 ∧
      (mentionsAll second.program.items).length = 19 ∧
      let installed := (Interpreter.fresh.install first).value
      let other := (Interpreter.fresh.install second).value
      let requests := [Request.setSampleRate 44100.0, .runInit, .setParameter 0 0.25,
        .runSample 0.5 0.25, .runSlider]
      installed.context.SeenAlike other.context ∧
        List.Forall₂ (fun outcome twin => outcome.1 = twin.1 ∧ outcome.2.SeenAlike twin.2)
          (installed.trace requests) (other.trace requests) := by
  have plain : (compile plainSource).value.toOption.map Script.outline =
      some ⟨8, [(0, 1.0)],
        [some [some (.named "g" 0, .host .srate)], none,
          some [some (.named "h" 0, .host .spl0), some (.host .spl1, .named "h" 0)], none]⟩ := by
    decide +kernel
  have cluttered : (compile clutteredSource).value.toOption.map Script.outline =
      some ⟨19, [(0, 1.0)],
        [some [some (.named "g" 0, .host .srate)], none,
          some [some (.named "h" 0, .host .spl0), some (.host .spl1, .named "h" 0)], none]⟩ := by
    decide +kernel
  obtain ⟨first, compiled, outline⟩ := Script.exists_of_outline plain
  obtain ⟨second, compiledOther, outlineOther⟩ := Script.exists_of_outline cluttered
  have mentions : (mentionsAll first.program.items).length = 8 :=
    congrArg Script.Outline.mentions outline
  have mentionsOther : (mentionsAll second.program.items).length = 19 :=
    congrArg Script.Outline.mentions outlineOther
  have room : first.program.symbols.length ≤ arenaSize :=
    (length_symbols_le compiled).trans (by rw [mentions]; decide)
  have roomOther : second.program.symbols.length ≤ arenaSize :=
    (length_symbols_le compiledOther).trans (by rw [mentionsOther]; decide)
  have sliders : first.info.initialValues = second.info.initialValues :=
    (congrArg Script.Outline.sliders outline).trans
      (congrArg Script.Outline.sliders outlineOther).symm
  have copies : first.outline.copies = second.outline.copies := by
    rw [outline, outlineOther]
  have live := Script.live_eq_of_copies copies (by rw [outline]; simp)
  exact ⟨first, second, compiled, compiledOther, mentions, mentionsOther,
    answers_alike_of_live_sections compiled compiledOther room roomOther sliders live (by decide)⟩

end EffectScript
