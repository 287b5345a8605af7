import EffectScript.Language.Grammar
import EffectScript.Script.Info

/-!
# Compiled scripts

A script is its header, its parsed body and the statements of its sections.  When a section appears
more than once, the last one counts; sections with other names and statements outside sections never
run.
-/

namespace EffectScript

namespace Script

open EffectScript.Language

/-- The sections a script can have. -/
inductive SectionKind where
  /-- Runs once, after the variables are zeroed. -/
  | init
  /-- Runs when sliders have changed. -/
  | slider
  /-- Runs for every frame. -/
  | sample
  /-- Runs once for every block of frames. -/
  | block
  /-- Never runs. -/
  | gfx
  deriving DecidableEq, Repr

namespace SectionKind

/-- All kinds, in the order in which they are listed. -/
def all : List SectionKind := [init, slider, sample, block, gfx]

/-- The marker of a section. -/
def name : SectionKind → String
  | init => "@init"
  | slider => "@slider"
  | sample => "@sample"
  | block => "@block"
  | gfx => "@gfx"

/-- The section with a marker. -/
def ofName? : String → Option SectionKind
  | "@init" => some init
  | "@slider" => some slider
  | "@sample" => some sample
  | "@block" => some block
  | "@gfx" => some gfx
  | _ => none

@[simp]
theorem ofName?_name (kind : SectionKind) : ofName? kind.name = some kind := by
  cases kind <;> rfl

end SectionKind

/-- The statements of each section that is present. -/
structure Sections where
  init : Option (List Node)
  slider : Option (List Node)
  sample : Option (List Node)
  block : Option (List Node)
  gfx : Option (List Node)

namespace Sections

/-- No section is present. -/
def empty : Sections := ⟨none, none, none, none, none⟩

/-- The statements of a section. -/
def get? (sections : Sections) : SectionKind → Option (List Node)
  | .init => sections.init
  | .slider => sections.slider
  | .sample => sections.sample
  | .block => sections.block
  | .gfx => sections.gfx

/-- Set the statements of a section. -/
def insert (sections : Sections) (kind : SectionKind) (body : List Node) : Sections :=
  match kind with
  | .init => { sections with init := some body }
  | .slider => { sections with slider := some body }
  | .sample => { sections with sample := some body }
  | .block => { sections with block := some body }
  | .gfx => { sections with gfx := some body }

theorem get?_insert (sections : Sections) (kind other : SectionKind) (body : List Node) :
    (sections.insert kind body).get? other =
      if other = kind then some body else sections.get? other := by
  cases kind <;> cases other <;> rfl

/-- Take one item of a program: a section with a known name replaces an earlier one. -/
def withItem (sections : Sections) : Node → Sections
  | .sectionOf name body =>
    match SectionKind.ofName? name with
    | some kind => sections.insert kind body
    | none => sections
  | _ => sections

/-- The sections of a program. -/
def ofItems (items : List Node) : Sections :=
  items.foldl withItem empty

/-- The kinds that are present. -/
def present (sections : Sections) : List SectionKind :=
  SectionKind.all.filter fun kind => (sections.get? kind).isSome

end Sections

end Script

/-- A script ready to be installed. -/
structure Script where
  info : Script.Info
  program : Language.Program
  sections : Script.Sections

namespace Script

open EffectScript.Language

/-- The statements of a section. -/
def body? (script : Script) (kind : SectionKind) : Option (List Node) :=
  script.sections.get? kind

/-- Note the sections of a program that have no known name. -/
def noteUnknownSections : List Node → Logged Unit
  | [] => return ()
  | .sectionOf name _ :: rest => do
    if (SectionKind.ofName? name).isNone then
      .note .debug s!"ignoring unknown section '{name}'"
    noteUnknownSections rest
  | _ :: rest => noteUnknownSections rest

/-- Number of statements outside any section. -/
def looseCount (items : List Node) : Nat :=
  items.countP fun item =>
    match item with
    | .sectionOf _ _ => false
    | _ => true

/-- Note what will not run, and what was compiled. -/
def noteCompiled (script : Script) : Logged Unit := do
  noteUnknownSections script.program.items
  let loose := looseCount script.program.items
  if 0 < loose then
    .note .debug s!"{loose} statement(s) outside any section will not run"
  let names := String.intercalate " " (script.sections.present.map SectionKind.name)
  let variableCount := script.program.symbols.length
  let functionCount := script.program.functions.length
  .note .debug
    (s!"compiled '{script.info.description}': sections [{names}], " ++
      s!"{variableCount} variable(s), {functionCount} function(s)")

/-- Compile a source: read its header, parse its body and find its sections. -/
def compile (source : String) : Logged (Except LoadError Script) := do
  match ← (readHeader source).run with
  | .error cause => return .error (.header cause)
  | .ok (info, body) =>
    match ← parse body with
    | .error cause => return .error (.nesting cause)
    | .ok program =>
      let script : Script := ⟨info, program, .ofItems program.items⟩
      script.noteCompiled
      return .ok script

end Script

end EffectScript
