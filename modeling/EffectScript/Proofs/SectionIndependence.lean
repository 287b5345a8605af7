import EffectScript.Proofs.FreshParser
import EffectScript.Proofs.SectionBoundary
import Mathlib.Data.List.Forall2

/-!
# Sections are parsed independently

A script is a preamble of loose statements and a sequence of sections.  Parsing the whole script
succeeds exactly if parsing the preamble and every section alone succeeds, and then gives the same
trees up to the numbers of names: no section is lost, and none reaches into another, however
malformed the tokens are.
-/

namespace EffectScript.Language

/-! ### Sources in parts -/

/-- The token belongs to a section: it is not a marker, has a meaning and is not the end. -/
def Token.isPlain (token : Token) : Bool :=
  !token.isTrivia && !token.isEndOfFile && !token.isSectionMarker

/-- A marker and the plain tokens of its section. -/
structure SectionSource where
  marker : Token
  body : List Token
  opens : marker.isSectionMarker = true
  plain : ∀ token ∈ body, token.isPlain = true

/-- Plain tokens before the first marker, and sections. -/
structure ScriptSource where
  preamble : List Token
  sections : List SectionSource
  plain : ∀ token ∈ preamble, token.isPlain = true

/-- The marker with its body. -/
def SectionSource.tokens (part : SectionSource) : List Token :=
  part.marker :: part.body

/-- All tokens in order. -/
def ScriptSource.tokens (source : ScriptSource) : List Token :=
  source.preamble ++ source.sections.flatMap SectionSource.tokens

/-- No section stands in the tree. -/
def Node.SectionFree (node : Node) : Prop :=
  ∀ name, Mention.marker name ∉ node.mentions

/-- The node is the section as it is parsed alone, up to the numbers of names, and holds no other
section. -/
def SectionSource.Yields (part : SectionSource) (node : Node) : Prop :=
  ∃ (own : Program) (ownBody body : List Node),
    parsed part.tokens = .ok own ∧ own.items = [.sectionOf part.marker.text ownBody] ∧
      node = .sectionOf part.marker.text body ∧ unnumberedAll body = unnumberedAll ownBody ∧
      ∀ inner ∈ body, inner.SectionFree

namespace Token

theorem isPlain_iff {token : Token} :
    token.isPlain = true ↔ token.isTrivia = false ∧ token.isEndOfFile = false ∧
      token.isSectionMarker = false := by
  simp [isPlain, and_assoc]

/-- Tokens that a parser keeps when it begins. -/
theorem isMeaningful_of_isSectionMarker {token : Token} (opens : token.isSectionMarker = true) :
    token.isTrivia = false ∧ token.isEndOfFile = false := by
  simp only [isSectionMarker, Bool.and_eq_true, beq_iff_eq] at opens
  simp [isTrivia, isEndOfFile, opens.1]

end Token

theorem SectionSource.meaningful (part : SectionSource) (token : Token)
    (member : token ∈ part.tokens) : token.isTrivia = false ∧ token.isEndOfFile = false := by
  rcases List.mem_cons.1 member with rfl | member
  · exact Token.isMeaningful_of_isSectionMarker part.opens
  · have plain := Token.isPlain_iff.1 (part.plain token member)
    exact ⟨plain.1, plain.2.1⟩

theorem ScriptSource.meaningful (source : ScriptSource) (token : Token)
    (member : token ∈ source.tokens) : token.isTrivia = false ∧ token.isEndOfFile = false := by
  rcases List.mem_append.1 member with member | member
  · have plain := Token.isPlain_iff.1 (source.plain token member)
    exact ⟨plain.1, plain.2.1⟩
  · obtain ⟨part, _, member⟩ := List.mem_flatMap.1 member
    exact part.meaningful token member

/-- The sections begin with a marker, if there are any. -/
theorem SectionSource.marked (sections : List SectionSource) (token : Token)
    (first : token ∈ (sections.flatMap SectionSource.tokens).head?) :
    token.isSectionMarker = true := by
  cases sections with
  | nil => simp at first
  | cons part sections =>
    simp only [List.flatMap_cons, SectionSource.tokens, List.cons_append, List.head?_cons,
      Option.mem_some] at first
    rw [← first]
    exact part.opens

namespace Parser

theorem skipSeparators_skipSeparators (parser : Parser) :
    parser.skipSeparators.skipSeparators = parser.skipSeparators := by
  cases remaining : parser.skipSeparators.rest with
  | nil => exact skipSeparators_of_nil remaining
  | cons token rest =>
    refine skipSeparators_of_not remaining ?_
    have head := List.head?_dropWhile_not (fun token : Token => token.isPunctuation ";") parser.rest
    rw [show parser.rest.dropWhile (fun token => token.isPunctuation ";") = token :: rest
      from remaining] at head
    simpa using head

end Parser

/-! ### Items as loose statements and sections -/

namespace Parse

variable {statement : Parse Node} {good : List Node → Parser → Prop} {bad : Parser → Prop}

/-- Statements end where they are stopped. -/
theorem ensures_statementsWithin_stopped
    (consumes : MoveLaw.consumption.Governs Node.mentions statement) (stops : Token → Bool)
    (allowance : List Token) (parser : Parser) (enough : parser.rest.length < allowance.length) :
    (statementsWithin statement stops allowance).Ensures parser
      (fun _ after => (after.atBoundary || stops after.current) = true) (fun _ => True) := by
  induction allowance generalizing parser with
  | nil => simp at enough
  | cons _ allowance ih =>
    have shorter := (Parser.Consumes.skipSeparators parser).length_le
    simp only [List.length_cons] at enough
    simp only [statementsWithin, ensures_bind, ensures_modify, ensures_inspect]
    split
    · assumption
    · rename_i unfinished
      have remaining : parser.skipSeparators.rest ≠ [] := by
        intro finished
        simp [Parser.atBoundary, Parser.atEnd, finished] at unfinished
      simp only [ensures_bind, ensures_inspect, ensures_modify, ensures_pure]
      refine (consumes _).imp (fun node after consumed => ?_) fun _ _ => trivial
      have fewer := Parser.Consumes.ensureProgress_length consumed remaining
      exact (ih _ (by omega)).imp (fun _ _ stopped => stopped) fun _ _ => trivial

theorem ensures_itemsWithin_of_marker {parser : Parser} {marker : Token} {rest : List Token}
    (remaining : parser.rest = marker :: rest) (opens : marker.isSectionMarker = true)
    (round : Token) (allowance : List Token) :
    (itemsWithin statement (round :: allowance)).Ensures parser good bad ↔
      (statements statement fun _ => false).Ensures parser.advance
        (fun body after => (itemsWithin statement allowance).Ensures after
          (fun items last => good (.sectionOf marker.text body :: items) last) bad) bad := by
  have ends : marker.endsSection = true := by simp [Token.endsSection, opens]
  have other : ¬marker.isPunctuation ";" = true := by
    simp [Token.isPunctuation, Token.is_of_endsSection ends .punctuation (by decide)]
  have current : parser.current = marker := by simp [Parser.current, remaining]
  simp only [itemsWithin, ensures_bind, ensures_modify, ensures_inspect, ensures_current,
    Parser.skipSeparators_of_not remaining other, Parser.atEnd, remaining, List.isEmpty_cons,
    Bool.false_eq_true, if_false, current, opens, if_true, sectionItem, ensures_advance,
    ensures_pure]

/-- Loose statements are parsed up to the first marker, and then the items that remain. -/
theorem ensures_itemsWithin_of_statements
    (consumes : MoveLaw.consumption.Governs Node.mentions statement) (allowance : List Token)
    (parser : Parser) (enough : parser.rest.length < allowance.length)
    (parts : (statementsWithin statement (fun _ => false) allowance).Ensures parser
      (fun loose after => ∀ more : List Token, after.rest.length < more.length →
        (itemsWithin statement more).Ensures after
          (fun items last => good (loose ++ items) last) bad) bad) :
    (itemsWithin statement allowance).Ensures parser good bad := by
  induction allowance generalizing parser good with
  | nil => simp at enough
  | cons round allowance ih =>
    have shorter := (Parser.Consumes.skipSeparators parser).length_le
    simp only [List.length_cons] at enough
    simp only [statementsWithin, ensures_bind, ensures_modify, ensures_inspect,
      Bool.or_false] at parts
    split at parts
    -- At a marker there is no statement, and the items are parsed with the same allowance.
    · have again := parts (round :: allowance) (by simp only [List.length_cons]; omega)
      simpa only [itemsWithin, ensures_bind, ensures_modify,
        Parser.skipSeparators_skipSeparators, List.nil_append] using again
    · rename_i unfinished
      have remaining : parser.skipSeparators.rest ≠ [] := by
        intro finished
        simp [Parser.atBoundary, Parser.atEnd, finished] at unfinished
      simp only [Parser.atBoundary, Bool.or_eq_true, not_or] at unfinished
      simp only [itemsWithin, ensures_bind, ensures_modify, ensures_inspect, ensures_current,
        unfinished.1, unfinished.2, Bool.false_eq_true, if_false]
      simp only [ensures_bind, ensures_inspect, ensures_modify, ensures_pure] at parts
      refine ((consumes _).and parts).imp ?_ fun _ refused => refused.2
      rintro node after ⟨consumed, continued⟩
      have fewer := Parser.Consumes.ensureProgress_length consumed remaining
      exact ih _ (by omega) continued

/-! ### The statements of one part -/

/-- Parse the statements of a preamble or of a section. -/
def part : Parse (List Node) :=
  statements (grammar nestingLimit).statement fun _ => false

/-- The items of a program are those of its first part and those behind it. -/
theorem ensures_itemsWithin_of_part {parser : Parser}
    (parts : part.Ensures parser
      (fun loose after => ∀ more : List Token, after.rest.length < more.length →
        (itemsWithin (grammar nestingLimit).statement more).Ensures after
          (fun items last => good (loose ++ items) last) bad) bad) :
    (itemsWithin (grammar nestingLimit).statement parser.allowance).Ensures parser good bad :=
  ensures_itemsWithin_of_statements (MoveLaw.consumption.grammar nestingLimit).statement
    parser.allowance parser (by simp [Parser.allowance]) parts

end Parse

/-- No parser of the grammar opens a section. -/
def MoveLaw.sectionless : MoveLaw where
  moves _ mentions _ := ∀ name, Mention.marker name ∉ mentions
  fails _ _ := True
  refl _ _ := List.not_mem_nil
  trans earlier later name := by simp [earlier name, later name]
  fails_of_moves _ _ := trivial
  refuse _ := trivial
  advance _ _ := List.not_mem_nil
  note _ _ _ := List.not_mem_nil
  symbol _ _ _ _ _ := by simp
  host _ _ _ _ _ := by simp
  function _ _ _ := by simp

theorem sectionFree_of_sectionless {before after : Parser} {nodes : List Node}
    (moved : MoveLaw.sectionless.moves before (mentionsAll nodes) after) (node : Node)
    (member : node ∈ nodes) : node.SectionFree :=
  fun name mentioned => moved name (mem_mentionsAll member mentioned)

/-- A part alone is parsed to its end, and a part before others to the first marker behind it. -/
theorem together_part {tail : List Token} {alone within : Parser}
    (beside : alone.Beside tail within) :
    Parse.Together Parse.part alone Parse.part within
      fun nodes after counterparts companion =>
        unnumberedAll nodes = unnumberedAll counterparts ∧ after.rest = [] ∧
          companion.rest = tail ∧ companion.finish.isEndOfFile = true ∧
          ∀ node ∈ counterparts, node.SectionFree := by
  have consumes := (MoveLaw.consumption.grammar nestingLimit).statement
  have stopped := Parse.ensures_statementsWithin_stopped consumes (fun _ => false)
    alone.allowance alone (by simp [Parser.allowance])
  have sectionless := MoveLaw.governs_statements
    (MoveLaw.sectionless.grammar nestingLimit).statement (fun _ => false) within
  have inStep := Parse.inStep_statements consumes
    (Parse.grammar_inStep tail nestingLimit).statement (fun _ => false) alone within beside
  refine (inStep.ensuring stopped sectionless).imp ?_
  rintro nodes after counterparts companion ⟨⟨same, beside⟩, ended, free⟩
  have finished : after.rest = [] := by
    rw [Bool.or_false, beside.atBoundary_alone] at ended
    simpa using ended
  refine ⟨same, finished, ?_, beside.within_ends, sectionFree_of_sectionless free⟩
  rw [beside.rest_eq, finished, List.nil_append]

/-! ### Programs -/

namespace SectionSource

variable (part : SectionSource)

theorem ofTokens_rest : (Parser.ofTokens part.tokens).rest = part.marker :: part.body :=
  Parser.ofTokens_rest part.meaningful

theorem beside {tail : List Token} (marked : ∀ token ∈ tail.head?, token.isSectionMarker = true)
    {parser : Parser} (remaining : parser.rest = part.tokens ++ tail)
    (ends : parser.finish.isEndOfFile = true) :
    (Parser.ofTokens part.tokens).advance.Beside tail parser.advance := by
  have shape : parser.rest = part.marker :: (part.body ++ tail) := remaining
  constructor
  · simp [Parser.advance, part.ofTokens_rest, shape]
  · simp only [Parser.advance, part.ofTokens_rest]
    intro token member
    exact (Token.isPlain_iff.1 (part.plain token member)).2.2
  · exact marked
  · simpa [Parser.advance, part.ofTokens_rest] using Parser.ofTokens_finish part.tokens
  · simpa [Parser.advance, shape] using ends

theorem parsed_of_ok {body : List Node} {after : Parser}
    (outcome : Parse.part (Parser.ofTokens part.tokens).advance = .ok body after)
    (finished : after.rest = []) :
    ∃ own, parsed part.tokens = .ok own ∧ own.items = [.sectionOf part.marker.text body] := by
  have ensured : (Parse.itemsWithin (grammar nestingLimit).statement
      (Parser.ofTokens part.tokens).allowance).Ensures (Parser.ofTokens part.tokens)
        (fun items _ => items = [.sectionOf part.marker.text body]) (fun _ => False) := by
    rw [Parser.allowance, Parse.ensures_itemsWithin_of_marker part.ofTokens_rest part.opens]
    refine (Parse.ensures_of_ok outcome).imp ?_ fun _ => id
    rintro found last ⟨rfl, rfl⟩
    rw [Parse.ensures_itemsWithin_of_finished finished]
  rcases parsed_of_ensures ensured with accepted | ⟨_, impossible⟩
  · exact accepted
  · exact impossible.elim

theorem parsed_of_error {error : NestingError} {after : Parser}
    (outcome : Parse.part (Parser.ofTokens part.tokens).advance = .error error after)
    (own : Program) : parsed part.tokens ≠ .ok own := by
  have ensured : (Parse.itemsWithin (grammar nestingLimit).statement
      (Parser.ofTokens part.tokens).allowance).Ensures (Parser.ofTokens part.tokens)
        (fun _ _ => False) (fun _ => True) := by
    rw [Parser.allowance, Parse.ensures_itemsWithin_of_marker part.ofTokens_rest part.opens]
    exact (Parse.ensures_of_error outcome).imp (fun _ _ => False.elim) fun _ _ => trivial
  rcases parsed_of_ensures ensured with ⟨_, _, impossible⟩ | ⟨⟨refusal, refused⟩, _⟩
  · exact impossible.elim
  · simp [refused]

theorem parsed_of_yields {sections : List SectionSource} {items : List Node}
    (yields : List.Forall₂ Yields sections items) :
    ∀ part ∈ sections, ∃ own, parsed part.tokens = .ok own := by
  induction yields with
  | nil => simp
  | cons yielded _ ih =>
    intro part member
    rcases List.mem_cons.1 member with rfl | member
    · obtain ⟨own, _, _, accepted, _⟩ := yielded
      exact ⟨own, accepted⟩
    · exact ih part member

end SectionSource

/-- In front of sections a parser yields each of them, or one of them is refused alone. -/
theorem ensures_itemsWithin_sections (sections : List SectionSource) (parser : Parser)
    (remaining : parser.rest = sections.flatMap SectionSource.tokens)
    (ends : parser.finish.isEndOfFile = true) (allowance : List Token)
    (enough : parser.rest.length < allowance.length) :
    (Parse.itemsWithin (grammar nestingLimit).statement allowance).Ensures parser
      (fun items _ => List.Forall₂ SectionSource.Yields sections items)
      (fun _ => ∃ part ∈ sections, ∀ own, parsed part.tokens ≠ .ok own) := by
  induction sections generalizing parser allowance with
  | nil =>
    rw [Parse.ensures_itemsWithin_of_finished (by simpa using remaining)]
    exact .nil
  | cons part sections ih =>
    rw [List.flatMap_cons] at remaining
    cases allowance with
    | nil => simp at enough
    | cons round allowance =>
      have beside := part.beside (SectionSource.marked sections) remaining ends
      rw [Parse.ensures_itemsWithin_of_marker remaining part.opens]
      refine (together_part beside).ensures.imp ?_ ?_
      · rintro body after ⟨ownBody, last, outcome, same, finished, rest, ends, free⟩
        have fewer : after.rest.length < allowance.length := by
          rw [remaining, List.length_append, SectionSource.tokens] at enough
          simp only [List.length_cons] at enough
          rw [rest]
          omega
        refine (ih after rest ends allowance fewer).imp ?_ ?_
        · intro items _ yields
          obtain ⟨own, accepted, ownItems⟩ := part.parsed_of_ok outcome finished
          exact .cons ⟨own, ownBody, body, accepted, ownItems, rfl, same.symm, free⟩ yields
        · rintro _ ⟨other, member, refused⟩
          exact ⟨other, List.mem_cons_of_mem part member, refused⟩
      · rintro _ ⟨error, last, outcome⟩
        exact ⟨part, List.mem_cons_self, part.parsed_of_error outcome⟩

namespace ScriptSource

variable (source : ScriptSource)

theorem ofTokens_preamble : (Parser.ofTokens source.preamble).rest = source.preamble := by
  refine Parser.ofTokens_rest fun token member => ?_
  have plain := Token.isPlain_iff.1 (source.plain token member)
  exact ⟨plain.1, plain.2.1⟩

theorem beside : (Parser.ofTokens source.preamble).Beside
    (source.sections.flatMap SectionSource.tokens) (Parser.ofTokens source.tokens) := by
  constructor
  · rw [Parser.ofTokens_rest source.meaningful, source.ofTokens_preamble, ScriptSource.tokens]
  · rw [source.ofTokens_preamble]
    intro token member
    exact (Token.isPlain_iff.1 (source.plain token member)).2.2
  · exact SectionSource.marked source.sections
  · exact Parser.ofTokens_finish _
  · exact Parser.ofTokens_finish _

theorem parsed_preamble_of_ok {loose : List Node} {after : Parser}
    (outcome : Parse.part (Parser.ofTokens source.preamble) = .ok loose after)
    (finished : after.rest = []) :
    ∃ own, parsed source.preamble = .ok own ∧ own.items = loose := by
  have ensured : (Parse.itemsWithin (grammar nestingLimit).statement
      (Parser.ofTokens source.preamble).allowance).Ensures (Parser.ofTokens source.preamble)
        (fun items _ => items = loose) (fun _ => False) := by
    refine Parse.ensures_itemsWithin_of_part
      ((Parse.ensures_of_ok outcome).imp ?_ fun _ => False.elim)
    rintro found last ⟨rfl, rfl⟩ more _
    rw [Parse.ensures_itemsWithin_of_finished finished]
    exact List.append_nil found
  rcases parsed_of_ensures ensured with accepted | ⟨_, impossible⟩
  · exact accepted
  · exact impossible.elim

theorem parsed_preamble_of_error {error : NestingError} {after : Parser}
    (outcome : Parse.part (Parser.ofTokens source.preamble) = .error error after)
    (own : Program) : parsed source.preamble ≠ .ok own := by
  have ensured : (Parse.itemsWithin (grammar nestingLimit).statement
      (Parser.ofTokens source.preamble).allowance).Ensures (Parser.ofTokens source.preamble)
        (fun _ _ => False) (fun _ => True) :=
    Parse.ensures_itemsWithin_of_part
      ((Parse.ensures_of_error outcome).imp (fun _ _ => False.elim) fun _ _ => trivial)
  rcases parsed_of_ensures ensured with ⟨_, _, impossible⟩ | ⟨⟨refusal, refused⟩, _⟩
  · exact impossible.elim
  · simp [refused]

/-- The items of a whole script: those of the preamble and then one for each section. -/
def Yields (items : List Node) : Prop :=
  ∃ (own : Program) (loose sectionItems : List Node),
    parsed source.preamble = .ok own ∧ items = loose ++ sectionItems ∧
      unnumberedAll loose = unnumberedAll own.items ∧ (∀ item ∈ loose, item.SectionFree) ∧
      List.Forall₂ SectionSource.Yields source.sections sectionItems

theorem ensures_items :
    (Parse.itemsWithin (grammar nestingLimit).statement
      (Parser.ofTokens source.tokens).allowance).Ensures (Parser.ofTokens source.tokens)
        (fun items _ => source.Yields items)
        (fun _ => (∀ own, parsed source.preamble ≠ .ok own) ∨
          ∃ part ∈ source.sections, ∀ own, parsed part.tokens ≠ .ok own) := by
  refine Parse.ensures_itemsWithin_of_part ((together_part source.beside).ensures.imp ?_ ?_)
  · rintro loose after ⟨ownItems, last, outcome, same, finished, rest, ends, free⟩ more enough
    obtain ⟨own, accepted, rfl⟩ := source.parsed_preamble_of_ok outcome finished
    refine (ensures_itemsWithin_sections source.sections after rest ends more enough).imp ?_ ?_
    · intro sectionItems _ yields
      exact ⟨own, loose, sectionItems, accepted, rfl, same.symm, free, yields⟩
    · exact fun _ => .inr
  · rintro _ ⟨error, last, outcome⟩
    exact .inl (source.parsed_preamble_of_error outcome)

/-- A script is accepted exactly if its preamble and each of its sections are accepted alone.  Its
items are then those of the preamble, among which there is no section, and one item for each
section, named by its marker and with the body that the section has alone. -/
theorem parsed_tokens_by_parts :
    ((∃ program, parsed source.tokens = .ok program) ↔
      (∃ own, parsed source.preamble = .ok own) ∧
        ∀ part ∈ source.sections, ∃ own, parsed part.tokens = .ok own) ∧
    ∀ program, parsed source.tokens = .ok program → source.Yields program.items := by
  rcases parsed_of_ensures source.ensures_items with
    ⟨program, accepted, yields⟩ | ⟨⟨error, refused⟩, culprit⟩
  · refine ⟨⟨fun _ => ?_, fun _ => ⟨program, accepted⟩⟩, ?_⟩
    · obtain ⟨own, _, _, preambleAccepted, _, _, _, parts⟩ := yields
      exact ⟨⟨own, preambleAccepted⟩, SectionSource.parsed_of_yields parts⟩
    · intro other otherAccepted
      rw [accepted] at otherAccepted
      obtain rfl := Except.ok.inj otherAccepted
      exact yields
  · refine ⟨⟨?_, ?_⟩, ?_⟩
    · rintro ⟨program, accepted⟩
      simp [refused] at accepted
    · rintro ⟨⟨own, preambleAccepted⟩, sectionsAccepted⟩
      rcases culprit with refusedPreamble | ⟨part, member, refusedPart⟩
      · exact (refusedPreamble own preambleAccepted).elim
      · obtain ⟨ownSection, sectionAccepted⟩ := sectionsAccepted part member
        exact (refusedPart ownSection sectionAccepted).elim
    · intro program accepted
      simp [refused] at accepted

/-- A preamble with an open condition and a stray bracket, a section with a call that is never
closed, and one behind it. -/
def raggedScript : ScriptSource where
  preamble := [⟨.punctuation, ")", 1, 1⟩, ⟨.keyword, "if", 1, 2⟩, ⟨.punctuation, "(", 1, 5⟩,
    ⟨.identifier, "x", 1, 6⟩, ⟨.operator, "=", 1, 8⟩]
  sections := [
    { marker := ⟨.identifier, "@init", 2, 1⟩
      body := [⟨.identifier, "f", 2, 7⟩, ⟨.punctuation, "(", 2, 8⟩]
      opens := by decide
      plain := by decide },
    { marker := ⟨.identifier, "@sample", 3, 1⟩
      body := [⟨.number, "1", 3, 9⟩]
      opens := by decide
      plain := by decide }]
  plain := by decide

theorem parsed_tokens_by_parts_raggedScript :
    (∃ own, parsed raggedScript.preamble = .ok own) ∧
      (∀ part ∈ raggedScript.sections, ∃ own, parsed part.tokens = .ok own) ∧
      ∃ program, parsed raggedScript.tokens = .ok program ∧ raggedScript.Yields program.items := by
  have accepted {tokens : List Token} (reads : (parsed tokens).toOption.isSome = true) :
      ∃ own, parsed tokens = .ok own := by
    cases outcome : parsed tokens with
    | error cause => simp [outcome, Except.toOption] at reads
    | ok own => exact ⟨own, rfl⟩
  have preamble : ∃ own, parsed raggedScript.preamble = .ok own := accepted (by decide +kernel)
  have sections : ∀ part ∈ raggedScript.sections, ∃ own, parsed part.tokens = .ok own := by
    have all : (raggedScript.sections.all fun part =>
        (parsed part.tokens).toOption.isSome) = true := by decide +kernel
    exact fun part member => accepted (List.all_eq_true.1 all part member)
  obtain ⟨accepts, yields⟩ := raggedScript.parsed_tokens_by_parts
  obtain ⟨program, whole⟩ := accepts.2 ⟨preamble, sections⟩
  exact ⟨preamble, sections, program, whole, yields program whole⟩

end ScriptSource

end EffectScript.Language
