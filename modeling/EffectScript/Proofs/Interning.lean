import EffectScript.Proofs.ParserEnd
import EffectScript.Script.Compile

/-!
# Numbers of names

The numbers in a parsed tree are places in the tables of its program: every variable stands in the
table of symbols at its number, and every called function in the table of functions.  The tables
hold no name twice.  Both hold because numbering a name never disturbs the names numbered before.
-/

namespace EffectScript.Language

/-! ### Tables -/

namespace NameTable

/-- Names and numbers determine each other. -/
def Consistent (table : NameTable) : Prop :=
  ∀ (number : Nat) (name : String),
    table.names[number]? = some name ↔ table.numbers[name]? = some number

/-- A later table: every listed name has kept its number. -/
def Extends (before after : NameTable) : Prop :=
  ∀ (number : Nat) (name : String),
    before.names[number]? = some name → after.names[number]? = some name

theorem Extends.refl (table : NameTable) : table.Extends table := fun _ _ => id

theorem consistent_empty : empty.Consistent := by
  intro number name
  simp [empty]

theorem intern_of_some {table : NameTable} {name : String} {number : Nat}
    (known : table.numbers[name]? = some number) : table.intern name = (number, table) := by
  simp [intern, known]

theorem intern_of_none {table : NameTable} {name : String}
    (new : table.numbers[name]? = none) :
    table.intern name =
      (table.names.size,
        ⟨table.names.push name, table.numbers.insert name table.names.size⟩) := by
  simp [intern, new]

/-- A consistent table that lists a new name stays consistent. -/
theorem Consistent.push {table : NameTable} (consistent : table.Consistent) {name : String}
    (new : table.numbers[name]? = none) :
    Consistent ⟨table.names.push name, table.numbers.insert name table.names.size⟩ := by
  intro number other
  have bound : table.names[number]? = some other → number < table.names.size := by
    intro listed
    exact (Array.getElem?_eq_some_iff.1 listed).1
  simp only [Array.getElem?_push, Std.HashMap.getElem?_insert, beq_iff_eq]
  by_cases last : number = table.names.size
  · subst last
    by_cases same : name = other
    · simp [same]
    · have absent : table.numbers[other]? ≠ some table.names.size := by
        intro numbered
        exact absurd (bound ((consistent _ _).2 numbered)) (Nat.lt_irrefl _)
      simp [same, absent]
  · by_cases same : name = other
    · subst same
      have absent : table.names[number]? ≠ some name := by
        intro listed
        rw [(consistent _ _).1 listed] at new
        contradiction
      simp [last, absent, Ne.symm last]
    · simp [last, same, consistent number other]

theorem Consistent.intern {table : NameTable} (consistent : table.Consistent) (name : String) :
    (table.intern name).2.Consistent ∧ table.Extends (table.intern name).2 ∧
      (table.intern name).2.names[(table.intern name).1]? = some name := by
  cases known : table.numbers[name]? with
  | some number =>
    rw [intern_of_some known]
    exact ⟨consistent, .refl table, (consistent _ _).2 known⟩
  | none =>
    rw [intern_of_none known]
    refine ⟨consistent.push known, fun number other listed => ?_, by simp⟩
    have bound := (Array.getElem?_eq_some_iff.1 listed).1
    simpa [Array.getElem?_push, Nat.ne_of_lt bound] using listed

/-- A consistent table lists no name twice. -/
theorem Consistent.nodup {table : NameTable} (consistent : table.Consistent) :
    table.names.toList.Nodup := by
  rw [List.Nodup, List.pairwise_iff_getElem]
  intro first second firstBound secondBound order same
  simp only [Array.length_toList] at firstBound secondBound
  simp only [Array.getElem_toList] at same
  have numberFirst := (consistent _ _).1 (Array.getElem?_eq_getElem firstBound)
  have numberSecond := (consistent _ _).1 (Array.getElem?_eq_getElem secondBound)
  rw [same, numberSecond] at numberFirst
  exact absurd (Option.some.inj numberFirst) (Nat.ne_of_gt order)

end NameTable

/-! ### Mentions are listed -/

/-- The number of a mentioned name is its place in the tables. -/
def Mention.Listed (symbols functions : List String) : Mention → Prop
  | .symbol name number => symbols[number]? = some name
  | .function name number => functions[number]? = some name
  | .host _ | .marker _ => True

namespace Parser

@[simp]
theorem symbols_advance (parser : Parser) : parser.advance.symbols = parser.symbols := by
  rw [advance]
  split <;> rfl

@[simp]
theorem functions_advance (parser : Parser) : parser.advance.functions = parser.functions := by
  rw [advance]
  split <;> rfl

/-- Both tables of the parser are consistent. -/
def Consistent (parser : Parser) : Prop :=
  parser.symbols.Consistent ∧ parser.functions.Consistent

/-- The mention is listed in the tables of the parser. -/
def Lists (parser : Parser) (mention : Mention) : Prop :=
  mention.Listed parser.symbols.names.toList parser.functions.names.toList

/-- Moves that keep the tables consistent and every name in its place, and list what is mentioned
meanwhile. -/
structure Numbers (before : Parser) (mentions : List Mention) (after : Parser) : Prop where
  consistent : after.Consistent
  symbols_extends : before.symbols.Extends after.symbols
  functions_extends : before.functions.Extends after.functions
  lists : ∀ mention ∈ mentions, after.Lists mention

theorem Numbers.same {before after : Parser} (consistent : before.Consistent)
    (symbols : after.symbols = before.symbols) (functions : after.functions = before.functions)
    {mentions : List Mention} (lists : ∀ mention ∈ mentions, after.Lists mention) :
    before.Numbers mentions after :=
  ⟨by rwa [Consistent, symbols, functions], by rw [symbols]; exact .refl _,
    by rw [functions]; exact .refl _, lists⟩

theorem Numbers.silent {before after : Parser} (consistent : before.Consistent)
    (symbols : after.symbols = before.symbols) (functions : after.functions = before.functions) :
    before.Numbers [] after :=
  .same consistent symbols functions fun _ member => absurd member List.not_mem_nil

/-- What is listed stays listed. -/
theorem Lists.mono {before after : Parser} {mention : Mention}
    (symbols : before.symbols.Extends after.symbols)
    (functions : before.functions.Extends after.functions) (listed : before.Lists mention) :
    after.Lists mention := by
  cases mention with
  | symbol name number =>
    simp only [Lists, Mention.Listed, Array.getElem?_toList] at *
    exact symbols number name listed
  | function name number =>
    simp only [Lists, Mention.Listed, Array.getElem?_toList] at *
    exact functions number name listed
  | host var => trivial
  | marker name => trivial

theorem Numbers.trans {first second third : Parser} {early late : List Mention}
    (earlier : first.Numbers early second) (later : second.Numbers late third) :
    first.Numbers (early ++ late) third where
  consistent := later.consistent
  symbols_extends number name listed :=
    later.symbols_extends number name (earlier.symbols_extends number name listed)
  functions_extends number name listed :=
    later.functions_extends number name (earlier.functions_extends number name listed)
  lists mention member := by
    rcases List.mem_append.1 member with member | member
    · exact (earlier.lists mention member).mono later.symbols_extends later.functions_extends
    · exact later.lists mention member

end Parser

/-- Numbering keeps the tables consistent, and every mention of a tree is listed. -/
def MoveLaw.numbering : MoveLaw where
  moves before mentions after := before.Consistent → before.Numbers mentions after
  fails _ _ := True
  refl _ consistent := .silent consistent rfl rfl
  trans earlier later consistent :=
    (earlier consistent).trans (later (earlier consistent).consistent)
  fails_of_moves _ _ := trivial
  refuse _ := trivial
  advance parser consistent :=
    .silent consistent parser.symbols_advance parser.functions_advance
  note _ _ consistent := .silent consistent rfl rfl
  symbol parser name _ _ consistent := by
    obtain ⟨kept, grown, listed⟩ := consistent.1.intern name
    exact ⟨⟨kept, consistent.2⟩, grown, .refl _,
      by simpa [Parser.Lists, Mention.Listed] using listed⟩
  host _ _ _ _ consistent := by
    refine .same consistent rfl rfl ?_
    simp [Parser.Lists, Mention.Listed]
  function parser name consistent := by
    obtain ⟨kept, grown, listed⟩ := consistent.2.intern name
    exact ⟨⟨consistent.1, kept⟩, .refl _, grown,
      by simpa [Parser.Lists, Mention.Listed] using listed⟩

theorem MoveLaw.numbering_moves {before after : Parser} {mentions : List Mention} :
    numbering.moves before mentions after ↔ (before.Consistent → before.Numbers mentions after) :=
  Iff.rfl

/-! ### Programs -/

theorem MoveLaw.numbering_marks (parser : Parser) (name : String) :
    numbering.moves parser [.marker name] parser := by
  rw [numbering_moves]
  intro consistent
  exact .same consistent rfl rfl (by simp [Parser.Lists, Mention.Listed])

/-- Parsing a program from consistent tables hands out tables without repetitions in which every
mention of the items is listed. -/
theorem ensures_program_listed (parser : Parser) (consistent : parser.Consistent) :
    Parse.program.Ensures parser
      (fun program _ => program.symbols.Nodup ∧
        ∀ mention ∈ mentionsAll program.items,
          mention.Listed program.symbols program.functions)
      (fun _ => True) := by
  refine (MoveLaw.numbering.ensures_program MoveLaw.numbering_marks parser).imp
    (fun program _ parsed => ?_) fun _ _ => trivial
  obtain ⟨last, moved, symbols, functions⟩ := parsed
  have numbers := MoveLaw.numbering_moves.1 moved consistent
  rw [symbols, functions]
  exact ⟨numbers.consistent.1.nodup, numbers.lists⟩

theorem program_listed {tokens : List Token} {program : Program}
    (parsed : ((Parser.ofTokens tokens).run Parse.program).1 = .ok program) :
    program.symbols.Nodup ∧
      ∀ mention ∈ mentionsAll program.items,
        mention.Listed program.symbols program.functions :=
  (ensures_program_listed (Parser.ofTokens tokens)
    ⟨NameTable.consistent_empty, NameTable.consistent_empty⟩).run_ok parsed

end EffectScript.Language

namespace EffectScript.Script

open EffectScript.Language

/-! ### Scripts -/

theorem Sections.get?_foldl_withItem {items : List Node} {sections : Sections}
    {kind : SectionKind} {body : List Node}
    (found : (items.foldl Sections.withItem sections).get? kind = some body) :
    sections.get? kind = some body ∨ ∃ name, .sectionOf name body ∈ items := by
  induction items generalizing sections with
  | nil => exact .inl found
  | cons item rest ih =>
    rcases ih found with kept | ⟨name, member⟩
    · unfold Sections.withItem at kept
      split at kept
      · rename_i name statements
        split at kept
        · rw [Sections.get?_insert] at kept
          split at kept
          · obtain rfl := Option.some.inj kept
            exact .inr ⟨name, List.mem_cons_self⟩
          · exact .inl kept
        · exact .inl kept
      · exact .inl kept
    · exact .inr ⟨name, List.mem_cons_of_mem item member⟩

/-- The statements of a section are those of an item of the program. -/
theorem Sections.mem_of_get?_ofItems {items : List Node} {kind : SectionKind} {body : List Node}
    (found : (Sections.ofItems items).get? kind = some body) :
    ∃ name, .sectionOf name body ∈ items := by
  rcases Sections.get?_foldl_withItem found with absent | present
  · cases kind <;> contradiction
  · exact present

/-- A source that compiles has a body that parses, and its sections are those of the program. -/
theorem compile_ok {source : String} {script : Script}
    (compiled : (compile source).value = .ok script) :
    (∃ body, ((Parser.ofSource body).run Parse.program).1 = .ok script.program) ∧
      script.sections = .ofItems script.program.items := by
  unfold compile at compiled
  rw [Logged.value_bind] at compiled
  split at compiled
  · contradiction
  · rename_i info body header
    rw [Logged.value_bind] at compiled
    split at compiled
    · contradiction
    · rename_i program parsed
      rw [Logged.value_bind] at compiled
      obtain rfl := Except.ok.inj compiled
      exact ⟨⟨body, parsed⟩, rfl⟩

/-- Every mention in a section of a compiled script is listed in the tables of its program. -/
theorem body_listed {source : String} {script : Script}
    (compiled : (compile source).value = .ok script) {kind : SectionKind} {body : List Node}
    (found : script.body? kind = some body) :
    ∀ mention ∈ mentionsAll body,
      mention.Listed script.program.symbols script.program.functions := by
  obtain ⟨⟨text, parsed⟩, sections⟩ := compile_ok compiled
  rw [body?, sections] at found
  obtain ⟨name, member⟩ := Sections.mem_of_get?_ofItems found
  intro mention mentioned
  refine (program_listed parsed).2 mention (mem_mentionsAll member ?_)
  simp [Node.mentions, mentioned]

theorem symbols_nodup {source : String} {script : Script}
    (compiled : (compile source).value = .ok script) : script.program.symbols.Nodup := by
  obtain ⟨⟨text, parsed⟩, _⟩ := compile_ok compiled
  exact (program_listed parsed).1

end EffectScript.Script
