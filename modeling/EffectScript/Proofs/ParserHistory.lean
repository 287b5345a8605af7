import EffectScript.Proofs.Interning
import EffectScript.Proofs.ParserEnd
import Mathlib.Data.List.Induction

/-!
# Numbers over the life of a parser

One parser can be asked for expressions and programs in any order, and some requests may be refused.
The tables grow through all of it, refusals included, until a program is handed out together with
them; from then on the parser stands at the end of its tokens, where nothing is left to be named.
So every program numbers its own names and those of all expressions before it, and the first program
lists its names in the order in which they were met.
-/

namespace EffectScript.Language

/-! ### Calls -/

/-- What a parser can be asked for. -/
inductive ParserCall where
  | expression
  | program
  deriving DecidableEq, Repr

/-- What a parser answers. -/
inductive ParserAnswer where
  | expression (outcome : Except NestingError Node)
  | program (outcome : Except NestingError Program)

namespace Parser

/-- The answer to a call, and the parser after it. -/
def answer (parser : Parser) : ParserCall → ParserAnswer × Parser
  | .expression =>
    let (outcome, after) := parser.run Parse.expression
    (.expression outcome, after)
  | .program =>
    let (outcome, after) := parser.run Parse.program
    (.program outcome, after)

/-- The answers to calls in sequence. -/
def answers (parser : Parser) : List ParserCall → List ParserAnswer
  | [] => []
  | call :: rest =>
    let (answer, after) := parser.answer call
    answer :: after.answers rest

end Parser

/-! ### What a program says of names -/

/-- The number of a mentioned name is its place in the tables of a program, unless the program has
no items and its table ends before that number. -/
def Mention.NumberedBy (program : Program) : Mention → Prop
  | .symbol name number =>
    program.items ≠ [] ∨ number < program.symbols.length → program.symbols[number]? = some name
  | .function name number =>
    program.items ≠ [] ∨ number < program.functions.length →
      program.functions[number]? = some name
  | .host _ | .marker _ => True

/-- Names of the host and of constants, which never denote a variable of the script. -/
def Reserved (name : String) : Prop :=
  name ∈ ["spl0", "spl1", "srate", "tempo", "beat_position", "play_state", "ts_num",
    "ts_denom"] ∨
  name ∈ ["$pi", "$e", "$phi"] ∨
  ∃ digits : List Char, digits ≠ [] ∧ (∀ digit ∈ digits, Number.isDigit digit = true) ∧
    1 ≤ Number.digitsValue digits ∧ Number.digitsValue digits ≤ 64 ∧
    name = "slider" ++ String.ofList digits

/-- A mentioned slider exists, and a mentioned variable has a name of its own. -/
def Mention.Proper : Mention → Prop
  | .symbol name _ => ¬Reserved name
  | .host (.slider index) => index < 64
  | _ => True

/-- The name of a mentioned variable of the script. -/
def Mention.symbolName? : Mention → Option String
  | .symbol name _ => some name
  | _ => none

/-- The name of a mentioned function. -/
def Mention.functionName? : Mention → Option String
  | .function name _ => some name
  | _ => none

/-- A program lists no name twice, its numbers are right for itself and for the expressions among
earlier answers, and all names in them are proper. -/
structure Program.NumbersNames (program : Program) (earlier : List ParserAnswer) : Prop where
  symbols_nodup : program.symbols.Nodup
  functions_nodup : program.functions.Nodup
  numbered : ∀ mention ∈ mentionsAll program.items, mention.NumberedBy program
  numbered_earlier (node : Node) : .expression (.ok node) ∈ earlier →
    ∀ mention ∈ node.mentions, mention.NumberedBy program
  proper : ∀ mention ∈ mentionsAll program.items, mention.Proper
  proper_earlier (node : Node) : .expression (.ok node) ∈ earlier →
    ∀ mention ∈ node.mentions, mention.Proper

theorem Mention.Listed.numberedBy {program : Program} {mention : Mention}
    (listed : mention.Listed program.symbols program.functions) : mention.NumberedBy program := by
  cases mention with
  | symbol name number => exact fun _ => listed
  | function name number => exact fun _ => listed
  | host var => trivial
  | marker name => trivial

/-- A program without items and names says nothing of any mention. -/
theorem Mention.numberedBy_blank (mention : Mention) : mention.NumberedBy ⟨[], [], []⟩ := by
  cases mention <;> simp [NumberedBy]

/-! ### Proper names -/

theorem slider_lt_of_ofName? {name : String} {index : Nat}
    (denotes : HostVar.ofName? name = some (.slider index)) : index < sliderCount := by
  rw [HostVar.ofName?.eq_def] at denotes
  split at denotes
  case h_9 =>
    split at denotes
    · rename_i digits _
      obtain ⟨_, found, same⟩ := Option.map_eq_some_iff.1 denotes
      obtain rfl := HostVar.slider.inj same
      rw [sliderIndex?] at found
      split at found
      · contradiction
      · dsimp only at found
        split at found
        · rename_i inside
          simp only [Bool.and_eq_true, decide_eq_true_eq] at inside
          obtain rfl := Option.some.inj found
          omega
        · contradiction
    · contradiction
  all_goals
    cases Option.some.inj denotes

theorem ofName?_slider {digits : List Char} (present : digits ≠ [])
    (numerals : ∀ digit ∈ digits, Number.isDigit digit = true)
    (positive : 1 ≤ Number.digitsValue digits) (bounded : Number.digitsValue digits ≤ sliderCount) :
    HostVar.ofName? ("slider" ++ String.ofList digits) =
      some (.slider (Number.digitsValue digits - 1)) := by
  have letters : ("slider" ++ String.ofList digits).toList =
      's' :: 'l' :: 'i' :: 'd' :: 'e' :: 'r' :: digits := by
    simp
  rw [HostVar.ofName?.eq_def]
  split
  case h_9 =>
    simp [letters, sliderIndex?, present, List.all_eq_true.2 numerals, positive, bounded]
  -- The other cases are the names that are not sliders.
  all_goals
    rename_i same
    rw [same] at letters
    simp at letters

/-- What a bare name may be numbered as a variable is not reserved. -/
theorem not_reserved {name : String} (notConstant : constant? name = none)
    (notHost : HostVar.ofName? name = none) : ¬Reserved name := by
  rintro (port | constant | ⟨digits, present, numerals, positive, bounded, rfl⟩)
  · simp only [List.mem_cons, List.not_mem_nil, or_false] at port
    rcases port with rfl | rfl | rfl | rfl | rfl | rfl | rfl | rfl <;>
      exact absurd notHost (by decide)
  · simp only [List.mem_cons, List.not_mem_nil, or_false] at constant
    rcases constant with rfl | rfl | rfl <;> simp [constant?] at notConstant
  · rw [ofName?_slider present numerals positive bounded] at notHost
    contradiction

/-- Whatever the grammar mentions is proper. -/
def MoveLaw.naming : MoveLaw where
  moves _ mentions _ := ∀ mention ∈ mentions, mention.Proper
  fails _ _ := True
  refl _ := by simp
  trans earlier later mention member :=
    (List.mem_append.1 member).elim (earlier mention) (later mention)
  fails_of_moves _ _ := trivial
  refuse _ := trivial
  advance _ := by simp
  note _ _ := by simp
  symbol _ _ notConstant notHost := by
    simpa [Mention.Proper] using not_reserved notConstant notHost
  host _ _ var denotes := by
    rw [List.forall_mem_singleton]
    cases var with
    | slider index => exact slider_lt_of_ofName? denotes
    | _ => trivial
  function _ _ := by simp [Mention.Proper]

/-! ### The order of names -/

/-- Names with further ones behind them, each of them once. -/
def enlist (names further : List String) : List String :=
  further.foldl (fun names name => if name ∈ names then names else names ++ [name]) names

theorem enlist_append (names early late : List String) :
    enlist names (early ++ late) = enlist (enlist names early) late :=
  List.foldl_append

theorem mem_enlist_nil (further : List String) (name : String) :
    name ∈ enlist [] further ↔ name ∈ further := by
  induction further using List.reverseRecOn with
  | nil => exact Iff.rfl
  | append_singleton further last ih =>
    rw [enlist_append]
    simp only [enlist, List.foldl_cons, List.foldl_nil] at ih ⊢
    split <;> grind

theorem enlist_nil (further : List String) : enlist [] further = further.eraseDups := by
  induction further using List.reverseRecOn with
  | nil => rfl
  | append_singleton further last ih =>
    have listed := mem_enlist_nil further last
    rw [enlist_append, List.eraseDups_append, ← ih]
    rw [enlist, List.foldl_cons, List.foldl_nil]
    split
    · rename_i known
      simp [List.removeAll, listed.1 known]
    · rename_i new
      simp [List.removeAll, mt listed.2 new, List.eraseDups_cons]

theorem NameTable.Consistent.names_intern {table : NameTable} (consistent : table.Consistent)
    (name : String) : (table.intern name).2.names.toList = enlist table.names.toList [name] := by
  cases known : table.numbers[name]? with
  | some number =>
    have listed := Array.mem_of_getElem? ((consistent number name).2 known)
    simp [intern_of_some known, enlist, listed]
  | none =>
    have absent : name ∉ table.names := by
      intro member
      obtain ⟨number, listed⟩ := Array.mem_iff_getElem?.1 member
      rw [(consistent number name).1 listed] at known
      contradiction
    simp [intern_of_none known, enlist, absent]

/-- Names are listed in the order in which they are mentioned. -/
def MoveLaw.ordering : MoveLaw where
  moves before mentions after := before.Consistent → after.Consistent ∧
    after.symbols.names.toList =
      enlist before.symbols.names.toList (mentions.filterMap Mention.symbolName?) ∧
    after.functions.names.toList =
      enlist before.functions.names.toList (mentions.filterMap Mention.functionName?)
  fails _ _ := True
  refl _ consistent := ⟨consistent, rfl, rfl⟩
  trans {_ _ _ early late} earlier later consistent := by
    obtain ⟨consistent, symbols, functions⟩ := earlier consistent
    obtain ⟨consistent, symbolsLater, functionsLater⟩ := later consistent
    rw [List.filterMap_append, List.filterMap_append, enlist_append, enlist_append, ← symbols,
      ← functions]
    exact ⟨consistent, symbolsLater, functionsLater⟩
  fails_of_moves _ _ := trivial
  refuse _ := trivial
  advance parser consistent := by
    simpa [Parser.Consistent] using ⟨consistent, rfl, rfl⟩
  note _ _ consistent := ⟨consistent, rfl, rfl⟩
  symbol _ name _ _ consistent :=
    ⟨⟨(consistent.1.intern name).1, consistent.2⟩, consistent.1.names_intern name, rfl⟩
  host _ _ _ _ consistent := ⟨consistent, rfl, rfl⟩
  function _ name consistent :=
    ⟨⟨consistent.1, (consistent.2.intern name).1⟩, rfl, consistent.2.names_intern name⟩

/-! ### Tables on a refusal -/

/-- A law whose refusals are moves as well. -/
def MoveLaw.throughout (law : MoveLaw)
    (deepens : ∀ parser, law.moves parser [] { parser with depth := parser.depth + 1 }) :
    MoveLaw where
  moves := law.moves
  fails before after := ∃ mentions, law.moves before mentions after
  refl := law.refl
  trans := law.trans
  fails_of_moves := by
    rintro first second third early moved ⟨late, refused⟩
    exact ⟨early ++ late, law.trans moved refused⟩
  refuse parser := ⟨[], deepens parser⟩
  advance := law.advance
  note := law.note
  symbol := law.symbol
  host := law.host
  function := law.function

/-- Numbering, also where it ends in a refusal. -/
def MoveLaw.keeping : MoveLaw :=
  numbering.throughout fun _ consistent => .silent consistent rfl rfl

/-! ### Histories -/

theorem ParserAnswer.mem_of_mem_concat {answers : List ParserAnswer} {answer other : ParserAnswer}
    (member : other ∈ answers ++ [answer]) (different : answer ≠ other) : other ∈ answers := by
  rcases List.mem_append.1 member with member | member
  · exact member
  · exact absurd (List.mem_singleton.1 member).symm different

namespace Parser

/-- What is known of a parser after some answers.  Until a program was handed out, the tables list
what was mentioned in the expressions so far. -/
structure Answered (earlier : List ParserAnswer) (parser : Parser) : Prop where
  ends : parser.finish.isEndOfFile = true
  tables : parser.Spent ∨ parser.Consistent ∧ ∀ node, .expression (.ok node) ∈ earlier →
    ∀ mention ∈ node.mentions, parser.Lists mention
  proper (node : Node) : .expression (.ok node) ∈ earlier →
    ∀ mention ∈ node.mentions, mention.Proper

theorem answered_ofTokens (tokens : List Token) : (ofTokens tokens).Answered [] where
  ends := ofTokens_finish tokens
  tables := .inr ⟨⟨NameTable.consistent_empty, NameTable.consistent_empty⟩, by simp⟩
  proper _ member := absurd member List.not_mem_nil

variable {earlier : List ParserAnswer} {parser after : Parser}

/-- A refused call changes nothing of what is known. -/
theorem Answered.refused (answered : parser.Answered earlier) {answer : ParserAnswer}
    (refusal : ∀ node, answer ≠ .expression (.ok node)) (finish : after.finish = parser.finish)
    (spent : parser.Spent → after.Spent)
    (kept : parser.Consistent → parser.Numbers [] after) :
    after.Answered (earlier ++ [answer]) where
  ends := by rw [finish, answered.ends]
  tables := by
    rcases answered.tables with finished | ⟨consistent, lists⟩
    · exact .inl (spent finished)
    · refine .inr ⟨(kept consistent).consistent, fun node member mention mentioned => ?_⟩
      have listed := lists node (ParserAnswer.mem_of_mem_concat member (refusal node)) mention
        mentioned
      exact listed.mono (kept consistent).symbols_extends (kept consistent).functions_extends
  proper node member := answered.proper node
    (ParserAnswer.mem_of_mem_concat member (refusal node))

theorem Numbers.of_keeping_fails (refused : MoveLaw.keeping.fails parser after)
    (consistent : parser.Consistent) : parser.Numbers [] after := by
  obtain ⟨mentions, moved⟩ := refused
  have numbers := MoveLaw.numbering_moves.1 moved consistent
  exact ⟨numbers.consistent, numbers.symbols_extends, numbers.functions_extends, by simp⟩

theorem Answered.expression_error (answered : parser.Answered earlier) {error : NestingError}
    (outcome : (parser.run Parse.expression).1 = .error error) :
    (parser.run Parse.expression).2.Answered (earlier ++ [.expression (.error error)]) := by
  have consumed := (MoveLaw.consumption.governs_expression parser).run_error outcome
  have refused := (MoveLaw.keeping.governs_expression parser).run_error outcome
  refine answered.refused (by simp) (Consumes.finish_eq consumed) (fun spent => ?_)
    fun consistent => .of_keeping_fails refused consistent
  exact ((spent.ensures_expression answered.ends).run_error outcome).1

theorem Answered.expression_ok (answered : parser.Answered earlier) {node : Node}
    (outcome : (parser.run Parse.expression).1 = .ok node) :
    (parser.run Parse.expression).2.Answered (earlier ++ [.expression (.ok node)]) := by
  have consumed := (MoveLaw.consumption.governs_expression parser).run_ok outcome
  have numbered := (MoveLaw.numbering.governs_expression parser).run_ok outcome
  have named := (MoveLaw.naming.governs_expression parser).run_ok outcome
  constructor
  case ends => rw [Consumes.finish_eq consumed, answered.ends]
  case tables =>
    rcases answered.tables with spent | ⟨consistent, lists⟩
    · exact .inl ((spent.ensures_expression answered.ends).run_ok outcome).2.1
    · have numbers := MoveLaw.numbering_moves.1 numbered consistent
      refine .inr ⟨numbers.consistent, fun other member mention mentioned => ?_⟩
      rcases List.mem_append.1 member with member | member
      · exact (lists other member mention mentioned).mono numbers.symbols_extends
          numbers.functions_extends
      · obtain rfl : other = node := by simpa using member
        exact numbers.lists mention mentioned
  case proper =>
    intro other member
    rcases List.mem_append.1 member with member | member
    · exact answered.proper other member
    · obtain rfl : other = node := by simpa using member
      exact named

theorem Answered.program_error (answered : parser.Answered earlier) {error : NestingError}
    (outcome : (parser.run Parse.program).1 = .error error) :
    (parser.run Parse.program).2.Answered (earlier ++ [.program (.error error)]) := by
  have consumed := (MoveLaw.consumption.ensures_program MoveLaw.consumption_marks parser).run_error
    outcome
  have refused := (MoveLaw.keeping.ensures_program MoveLaw.numbering_marks parser).run_error
    outcome
  refine answered.refused (by simp) (Consumes.finish_eq consumed) (fun spent => ?_)
    fun consistent => .of_keeping_fails refused consistent
  exact (spent.ensures_program.run_error outcome).elim

theorem Answered.program_ok (answered : parser.Answered earlier) {program : Program}
    (outcome : (parser.run Parse.program).1 = .ok program) :
    (parser.run Parse.program).2.Answered (earlier ++ [.program (.ok program)]) := by
  obtain ⟨spent, consumed⟩ := (ensures_program_spent parser).run_ok outcome
  constructor
  case ends => rw [consumed.finish_eq, answered.ends]
  case tables => exact .inl spent
  case proper =>
    exact fun node member => answered.proper node (ParserAnswer.mem_of_mem_concat member (by simp))

/-- A program that is handed out numbers its own names and those of the expressions before. -/
theorem Answered.numbersNames (answered : parser.Answered earlier) {program : Program}
    (outcome : (parser.run Parse.program).1 = .ok program) : program.NumbersNames earlier := by
  have proper : ∀ mention ∈ mentionsAll program.items, mention.Proper := by
    obtain ⟨last, named, _⟩ :=
      (MoveLaw.naming.ensures_program (fun _ _ => List.forall_mem_singleton.2 trivial)
        parser).run_ok outcome
    exact named
  rcases answered.tables with spent | ⟨consistent, lists⟩
  · obtain rfl := (spent.ensures_program.run_ok outcome).1
    exact ⟨.nil, .nil, by simp, fun _ _ mention _ => mention.numberedBy_blank, proper,
      answered.proper⟩
  · obtain ⟨last, numbered, symbols, functions⟩ :=
      (MoveLaw.numbering.ensures_program MoveLaw.numbering_marks parser).run_ok outcome
    have numbers := MoveLaw.numbering_moves.1 numbered consistent
    -- What the last parser lists, the program lists.
    have listed (mention : Mention) (lists : last.Lists mention) : mention.NumberedBy program := by
      refine Mention.Listed.numberedBy ?_
      rwa [symbols, functions]
    constructor
    case symbols_nodup => exact symbols ▸ numbers.consistent.1.nodup
    case functions_nodup => exact functions ▸ numbers.consistent.2.nodup
    case numbered => exact fun mention member => listed mention (numbers.lists mention member)
    case numbered_earlier =>
      exact fun node member mention mentioned => listed mention
        ((lists node member mention mentioned).mono numbers.symbols_extends
          numbers.functions_extends)
    case proper => exact proper
    case proper_earlier => exact answered.proper

theorem Answered.answer (answered : parser.Answered earlier) (call : ParserCall) :
    (parser.answer call).2.Answered (earlier ++ [(parser.answer call).1]) := by
  cases call with
  | expression =>
    simp only [Parser.answer]
    cases outcome : (parser.run Parse.expression).1 with
    | ok node => exact answered.expression_ok outcome
    | error error => exact answered.expression_error outcome
  | program =>
    simp only [Parser.answer]
    cases outcome : (parser.run Parse.program).1 with
    | ok program => exact answered.program_ok outcome
    | error error => exact answered.program_error outcome

/-- A program among the answers comes from a parser of which the answers before it are known. -/
theorem Answered.exists_program {sofar : List ParserAnswer} (answered : parser.Answered sofar)
    {calls : List ParserCall} {program : Program} {later : List ParserAnswer}
    (among : parser.answers calls = earlier ++ .program (.ok program) :: later) :
    ∃ reached, reached.Answered (sofar ++ earlier) ∧ (reached.run Parse.program).1 = .ok program ∧
      (earlier = [] → reached = parser) := by
  induction calls generalizing sofar parser earlier with
  | nil => simp [answers] at among
  | cons call rest ih =>
    rw [answers] at among
    cases earlier with
    | nil =>
      rw [List.nil_append, List.cons.injEq] at among
      refine ⟨parser, by simpa using answered, ?_, fun _ => rfl⟩
      cases call with
      | expression => cases among.1
      | program => exact ParserAnswer.program.inj among.1
    | cons head earlier =>
      rw [List.cons_append, List.cons.injEq] at among
      obtain ⟨rfl, among⟩ := among
      obtain ⟨reached, known, outcome, _⟩ := ih (answered.answer call) among
      exact ⟨reached, by simpa using known, outcome, by simp⟩

/-- Whatever was asked before, a program that a parser hands out numbers the names in it and in all
expressions handed out before.  The first program lists exactly its own names, in the order in which
they were met. -/
theorem numbersNames_of_answers (tokens : List Token) (calls : List ParserCall)
    {earlier later : List ParserAnswer} {program : Program}
    (among : (ofTokens tokens).answers calls = earlier ++ .program (.ok program) :: later) :
    program.NumbersNames earlier ∧
      (earlier = [] →
        program.symbols =
          ((mentionsAll program.items).filterMap Mention.symbolName?).eraseDups ∧
        program.functions =
          ((mentionsAll program.items).filterMap Mention.functionName?).eraseDups) := by
  obtain ⟨reached, answered, outcome, same⟩ := (answered_ofTokens tokens).exists_program among
  refine ⟨answered.numbersNames outcome, fun first => ?_⟩
  obtain rfl := same first
  obtain ⟨last, ordered, symbols, functions⟩ :=
    (MoveLaw.ordering.ensures_program (fun _ _ consistent => ⟨consistent, rfl, rfl⟩)
      _).run_ok outcome
  obtain ⟨_, orderedSymbols, orderedFunctions⟩ :=
    ordered ⟨NameTable.consistent_empty, NameTable.consistent_empty⟩
  rw [symbols, functions, orderedSymbols, orderedFunctions, ← enlist_nil, ← enlist_nil]
  exact ⟨rfl, rfl⟩

/-- An expression and then the rest as a program, and all of it as one program. -/
theorem numbersNames_of_answers_calls :
    let tokens := tokenize "g(x, slider3) + slider99; y = g(y, x);"
    (∃ node program later,
      (ofTokens tokens).answers [.expression, .program, .expression] =
        [.expression (.ok node)] ++ .program (.ok program) :: later ∧
      program.NumbersNames [.expression (.ok node)]) ∧
    ∃ program, (ofTokens tokens).answers [.program] = [] ++ .program (.ok program) :: [] ∧
      program.symbols = ((mentionsAll program.items).filterMap Mention.symbolName?).eraseDups := by
  intro tokens
  have accepted : ((ofTokens tokens).run Parse.expression).1.isOk = true ∧
      (((ofTokens tokens).run Parse.expression).2.run Parse.program).1.isOk = true ∧
      ((ofTokens tokens).run Parse.program).1.isOk = true := by
    decide +kernel
  have ok_of_isOk {ε α : Type} {outcome : Except ε α} (succeeds : outcome.isOk = true) :
      ∃ value, outcome = .ok value := by
    cases outcome with
    | ok value => exact ⟨value, rfl⟩
    | error error => contradiction
  obtain ⟨node, first⟩ := ok_of_isOk accepted.1
  obtain ⟨program, second⟩ := ok_of_isOk accepted.2.1
  obtain ⟨whole, alone⟩ := ok_of_isOk accepted.2.2
  constructor
  · have among : (ofTokens tokens).answers [.expression, .program, .expression] =
        [.expression (.ok node)] ++ .program (.ok program) ::
          ((((ofTokens tokens).run Parse.expression).2.run Parse.program).2.answers
            [.expression]) := by
      simp only [answers, answer, first, second, List.cons_append, List.nil_append]
    exact ⟨node, program, _, among, (numbersNames_of_answers tokens _ among).1⟩
  · have among : (ofTokens tokens).answers [.program] = [] ++ .program (.ok whole) :: [] := by
      simp only [answers, answer, alone, List.nil_append]
    exact ⟨whole, among, ((numbersNames_of_answers tokens _ among).2 rfl).1⟩

end Parser

end EffectScript.Language
