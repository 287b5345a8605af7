import EffectScript.Proofs.ByPlace
import EffectScript.Proofs.GrammarLaw
import Mathlib.Order.Filter.AtTopBot.Basic

/-!
# Parsing a list and parsing by place

As long as a parser has in its list what stands in an array from its place on, parsing by place goes
the way that parsing the list goes.  Both give the same value and come to the same place, or both
are refused at the same token, for all numbers of nested calls from some number on.  The relation is
carried through every move and every repetition at one depth, and then from each depth to the one
above it, where the levels that are entered and left balance the levels of the grammar.

The array may hold the tokens in another guise, of which parsers take no notice.
-/

namespace EffectScript.Language

/-! ### Tokens in another guise -/

/-- A change of tokens that keeps what parsers look at: the kind, and the text of all tokens but
those that end a source. -/
structure Guise where
  token : Token → Token
  kind_eq (original : Token) : (token original).kind = original.kind
  text_eq (original : Token) : original.kind ≠ .endOfFile → (token original).text = original.text

namespace Guise

variable (guise : Guise) (token : Token)

theorem is_eq {kind : TokenKind} (inner : kind ≠ .endOfFile) (text : String) :
    (guise.token token).is kind text = token.is kind text := by
  simp only [Token.is, guise.kind_eq]
  by_cases same : token.kind = kind
  · rw [guise.text_eq token (by rwa [same])]
  · rw [beq_eq_false_iff_ne.2 same, Bool.false_and, Bool.false_and]

@[simp]
theorem isPunctuation_eq (text : String) :
    (guise.token token).isPunctuation text = token.isPunctuation text :=
  guise.is_eq token (by decide) text

@[simp]
theorem isKeyword_eq (text : String) :
    (guise.token token).isKeyword text = token.isKeyword text :=
  guise.is_eq token (by decide) text

@[simp]
theorem isOperator_eq (text : String) :
    (guise.token token).isOperator text = token.isOperator text :=
  guise.is_eq token (by decide) text

@[simp]
theorem isEndOfFile_eq : (guise.token token).isEndOfFile = token.isEndOfFile := by
  simp [Token.isEndOfFile, guise.kind_eq]

@[simp]
theorem isSectionMarker_eq : (guise.token token).isSectionMarker = token.isSectionMarker := by
  simp only [Token.isSectionMarker, guise.kind_eq]
  by_cases same : token.kind = .identifier
  · rw [guise.text_eq token (by simp [same])]
  · rw [beq_eq_false_iff_ne.2 same, Bool.false_and, Bool.false_and]

@[simp]
theorem operator?_eq {α : Type} (ofSymbol? : String → Option α) :
    (guise.token token).operator? ofSymbol? = token.operator? ofSymbol? := by
  simp only [Token.operator?, guise.kind_eq]
  by_cases same : token.kind = .operator
  · rw [guise.text_eq token (by simp [same])]
  · simp [same]

end Guise

/-! ### Standing in an array -/

namespace Parser

/-- What a parser still has to read stands in the array, from the place on that it has reached. -/
structure StandsIn (guise : Guise) (tokens : Array Token) (parser : Parser) : Prop where
  ahead : ∃ beyond, tokens.toList.drop parser.consumed =
    parser.rest.map guise.token ++ guise.token parser.finish :: beyond
  ends : parser.finish.isEndOfFile = true
  inner : ∀ token ∈ parser.rest, token.isEndOfFile = false

/-- The parser by place that stands where a parser stands. -/
def walker (parser : Parser) (tokens : Array Token) (depth : Nat) : ByPlace.Walker :=
  ⟨tokens, parser.consumed, depth, parser.symbols, parser.functions⟩

variable {guise : Guise} {tokens : Array Token} {parser : Parser}

namespace StandsIn

theorem note (standing : parser.StandsIn guise tokens) (message : String) :
    (parser.note message).StandsIn guise tokens :=
  ⟨standing.ahead, standing.ends, standing.inner⟩

theorem atEnd_eq (standing : parser.StandsIn guise tokens) :
    parser.atEnd = parser.current.isEndOfFile := by
  cases remaining : parser.rest with
  | nil => simp [atEnd, current, remaining, standing.ends]
  | cons token rest =>
    have inner := standing.inner token (by simp [remaining])
    simp [atEnd, current, remaining, inner]

theorem advance (standing : parser.StandsIn guise tokens) :
    parser.advance.StandsIn guise tokens := by
  rw [Parser.advance]
  split
  · exact standing
  · rename_i token rest remaining
    obtain ⟨beyond, ahead⟩ := standing.ahead
    refine ⟨⟨beyond, ?_⟩, standing.ends, fun other member => standing.inner other ?_⟩
    · rw [← List.drop_drop, ahead, remaining]
      rfl
    · rw [remaining]
      exact List.mem_cons_of_mem token member

/-- The token at which the parser stands is in its place. -/
theorem getElem?_current (standing : parser.StandsIn guise tokens) :
    tokens[parser.consumed]? = some (guise.token parser.current) := by
  obtain ⟨beyond, ahead⟩ := standing.ahead
  have first := congrArg (·[0]?) ahead
  rw [← Array.getElem?_toList]
  cases remaining : parser.rest <;> simpa [remaining, Parser.current] using first

theorem getElem?_following (standing : parser.StandsIn guise tokens)
    (remaining : parser.rest ≠ []) :
    tokens[parser.consumed + 1]? = some (guise.token parser.following) := by
  obtain ⟨token, rest, shape⟩ := List.exists_cons_of_ne_nil remaining
  have moved := standing.advance.getElem?_current
  simpa [Parser.advance, shape, Parser.current, Parser.following] using moved

end StandsIn

end Parser

/-- A parser stays in the array. -/
def MoveLaw.standing (guise : Guise) (tokens : Array Token) : MoveLaw where
  moves before _ after := before.StandsIn guise tokens → after.StandsIn guise tokens
  fails _ _ := True
  refl _ := id
  trans earlier later := later ∘ earlier
  fails_of_moves _ _ := trivial
  refuse _ := trivial
  advance _ := Parser.StandsIn.advance
  note message _ standing := standing.note message
  symbol _ _ _ _ standing := ⟨standing.ahead, standing.ends, standing.inner⟩
  host _ _ _ _ := id
  function _ _ standing := ⟨standing.ahead, standing.ends, standing.inner⟩

namespace Parser.StandsIn

variable {guise : Guise} {tokens : Array Token} {parser : Parser}
  (standing : parser.StandsIn guise tokens)

include standing

theorem skipSeparators : parser.skipSeparators.StandsIn guise tokens := by
  have unmoved : (MoveLaw.standing guise tokens).moves parser [] parser := id
  exact MoveLaw.moves_skipSeparators unmoved standing

theorem skipBeforeElse : parser.skipBeforeElse.StandsIn guise tokens := by
  have unmoved : (MoveLaw.standing guise tokens).moves parser [] parser := id
  exact MoveLaw.moves_skipBeforeElse unmoved standing

theorem ensureProgress (start : Nat) : (parser.ensureProgress start).StandsIn guise tokens := by
  have unmoved : (MoveLaw.standing guise tokens).moves parser [] parser := id
  exact MoveLaw.moves_ensureProgress start unmoved standing

end Parser.StandsIn

/-- What is known of a step is known of its outcome. -/
theorem Parse.Ensures.of_ok {α : Type} {step : Parse α} {parser after : Parser} {value : α}
    {good : α → Parser → Prop} {bad : Parser → Prop} (ensured : step.Ensures parser good bad)
    (outcome : step parser = .ok value after) : good value after := by
  rw [Ensures] at ensured
  rwa [outcome] at ensured

theorem Parse.current_bind {α : Type} (next : Token → Parse α) (parser : Parser) :
    (Parse.current >>= next) parser = next parser.current parser :=
  rfl

namespace ByPlace

variable {guise : Guise} {tokens : Array Token} {parser : Parser}

/-! ### Moves -/

/-- A step that moves a parser and then another one. -/
theorem bind_walk {α β : Type} {walk : Walk β} {next : β → Walk α} {walker after : Walker}
    {value : β} (moved : walk walker = some (value, after)) :
    (walk >>= next) walker = next value after := by
  change (walk walker).bind (fun outcome => next outcome.1 outcome.2) = _
  rw [moved]
  rfl

theorem tokenAt_walker (depth : Nat) {place : Nat} {token : Token}
    (found : tokens[place]? = some token) :
    tokenAt (min place (tokens.size - 1)) (parser.walker tokens depth) =
      some (token, parser.walker tokens depth) := by
  have bound := (Array.getElem?_eq_some_iff.1 found).1
  have inside : min place (tokens.size - 1) = place := by omega
  rw [inside]
  change (tokens[place]?.bind fun token => some (token, parser.walker tokens depth)) = _
  rw [found]
  rfl

section Moves

variable (standing : parser.StandsIn guise tokens) (depth : Nat)

include standing

theorem peek_walker :
    peek (parser.walker tokens depth) =
      some (guise.token parser.current, parser.walker tokens depth) :=
  tokenAt_walker depth standing.getElem?_current

theorem peekNext_walker (remaining : parser.rest ≠ []) :
    peekNext (parser.walker tokens depth) =
      some (guise.token parser.following, parser.walker tokens depth) :=
  tokenAt_walker depth (standing.getElem?_following remaining)

theorem advance_walker :
    advance (parser.walker tokens depth) = some ((), parser.advance.walker tokens depth) := by
  rw [advance]
  rw [bind_walk (peek_walker standing depth), guise.isEndOfFile_eq, ← standing.atEnd_eq]
  cases remaining : parser.rest with
  | nil => simp [Parser.atEnd, remaining, Parser.advance]; rfl
  | cons token rest => simp [Parser.atEnd, remaining, Parser.advance]; rfl

theorem atEnd_walker :
    atEnd (parser.walker tokens depth) = some (parser.atEnd, parser.walker tokens depth) := by
  rw [atEnd, bind_walk (peek_walker standing depth), guise.isEndOfFile_eq, ← standing.atEnd_eq]
  rfl

theorem atBoundary_walker :
    atBoundary (parser.walker tokens depth) =
      some (parser.atBoundary, parser.walker tokens depth) := by
  rw [atBoundary, bind_walk (atEnd_walker standing depth), Parser.atBoundary]
  cases parser.atEnd with
  | true => rfl
  | false =>
    simp only [Bool.false_eq_true, if_false, Bool.false_or]
    rw [bind_walk (peek_walker standing depth), guise.isSectionMarker_eq]
    rfl

theorem eat_walker (mark : String) :
    eat mark (parser.walker tokens depth) =
      if parser.current.isPunctuation mark then some (true, parser.advance.walker tokens depth)
      else some (false, parser.walker tokens depth) := by
  rw [eat, bind_walk (peek_walker standing depth), guise.isPunctuation_eq]
  split
  · rw [bind_walk (advance_walker standing depth)]
    rfl
  · rfl

theorem expect_walker (mark : String) :
    expect mark (parser.walker tokens depth) =
      some ((), (if parser.current.isPunctuation mark then parser.advance else parser).walker
        tokens depth) := by
  rw [expect]
  by_cases found : parser.current.isPunctuation mark = true
  · rw [bind_walk (by rw [eat_walker standing, if_pos found]), if_pos found]
    rfl
  · rw [bind_walk (by rw [eat_walker standing, if_neg found]), if_neg found]
    simp only [Bool.not_false, if_true]
    rw [bind_walk (peek_walker standing depth)]
    rfl

theorem skipBeforeElse_walker :
    skipBeforeElse (parser.walker tokens depth) =
      some ((), parser.skipBeforeElse.walker tokens depth) := by
  rw [skipBeforeElse, bind_walk (peek_walker standing depth), guise.isPunctuation_eq,
    Parser.skipBeforeElse]
  by_cases separator : parser.current.isPunctuation ";" = true
  · have remaining : parser.rest ≠ [] := by
      intro finished
      have ends := standing.ends
      simp only [Parser.current, finished, List.headD_nil, Token.isPunctuation, Token.is,
        Token.isEndOfFile, Bool.and_eq_true, beq_iff_eq] at separator ends
      rw [ends] at separator
      exact absurd separator.1 (by decide)
    rw [if_pos separator, bind_walk (peekNext_walker standing depth remaining),
      guise.isKeyword_eq, separator, Bool.true_and]
    split
    · exact advance_walker standing depth
    · rfl
  · rw [if_neg separator, if_neg (by simp [separator])]
    rfl

theorem ensureProgress_walker (start : Nat) :
    ensureProgress start (parser.walker tokens depth) =
      some ((), (parser.ensureProgress start).walker tokens depth) := by
  rw [ensureProgress, Parser.ensureProgress]
  change (if (parser.consumed == start) = true then _ else _ : Walk Unit) _ = _
  by_cases stuck : (parser.consumed == start) = true
  · rw [if_pos stuck, bind_walk (atEnd_walker standing depth), stuck, Bool.true_and]
    split
    · exact advance_walker standing depth
    · rfl
  · rw [if_neg stuck, if_neg (by simp [stuck])]
    rfl

end Moves

/-- Separators are passed if a call may be nested for each token and one more. -/
theorem skipSeparators_walker (standing : parser.StandsIn guise tokens) (depth : Nat) :
    ∀ᶠ calls in Filter.atTop, skipSeparators calls (parser.walker tokens depth) =
      some ((), parser.skipSeparators.walker tokens depth) := by
  filter_upwards [Filter.eventually_gt_atTop parser.rest.length] with calls enough
  induction calls generalizing parser with
  | zero => exact absurd enough (Nat.not_lt_zero _)
  | succ calls ih =>
    rw [skipSeparators]
    cases remaining : parser.rest with
    | nil =>
      have other : ¬parser.current.isPunctuation ";" = true := by
        have ends := standing.ends
        simp only [Token.isEndOfFile, beq_iff_eq] at ends
        simp [Parser.current, remaining, Token.isPunctuation, Token.is, ends]
      rw [bind_walk (by rw [eat_walker standing, if_neg other]),
        Parser.skipSeparators_of_nil remaining]
      rfl
    | cons token rest =>
      have current : parser.current = token := by simp [Parser.current, remaining]
      rw [remaining, List.length_cons] at enough
      by_cases separator : token.isPunctuation ";" = true
      · rw [bind_walk (by rw [eat_walker standing, current, if_pos separator]),
          Parser.skipSeparators_of_cons remaining separator]
        exact ih standing.advance (by simp [Parser.advance, remaining]; omega)
      · rw [bind_walk (by rw [eat_walker standing, current, if_neg separator]),
          Parser.skipSeparators_of_not remaining separator]
        rfl

/-! ### Outcomes that agree -/

variable {α β : Type}

/-- What a step makes of a parser and what a reading makes of a place agree: the same value at the
corresponding place, or refusals at the same token. -/
def Agrees (guise : Guise) (tokens : Array Token) (depth : Nat) :
    EStateM.Result NestingError Parser α → Option (Except NestingError α × Walker) → Prop
  | .ok value after, reached =>
    after.StandsIn guise tokens ∧ reached = some (.ok value, after.walker tokens depth)
  | .error error after, reached => ∃ token : Token,
    error = ⟨token.line, token.column⟩ ∧
      reached = some (.error ⟨(guise.token token).line, (guise.token token).column⟩,
        after.walker tokens (depth + 1))

/-- From where a parser stands, a reading does what a step does, if it may nest enough calls. -/
def Mirrors (guise : Guise) (tokens : Array Token) (depth : Nat) (reading : Nat → Reading α)
    (step : Parse α) (parser : Parser) : Prop :=
  ∀ᶠ calls in Filter.atTop,
    Agrees guise tokens depth (step parser) (reading calls (parser.walker tokens depth))

/-- From wherever a parser stands, a reading does what a step does. -/
def Follows (guise : Guise) (tokens : Array Token) (depth : Nat) (reading : Nat → Reading α)
    (step : Parse α) : Prop :=
  ∀ parser : Parser, parser.StandsIn guise tokens →
    Mirrors guise tokens depth reading step parser

variable {depth : Nat}

theorem bind_reading_ok {reading : Reading β} {next : β → Reading α} {walker after : Walker}
    {value : β} (read : reading walker = some (.ok value, after)) :
    (reading >>= next) walker = next value after := by
  change (reading walker).bind (fun outcome => ExceptT.bindCont next outcome.1 outcome.2) = _
  rw [read]
  rfl

theorem bind_reading_error {reading : Reading β} {next : β → Reading α} {walker after : Walker}
    {refusal : NestingError} (read : reading walker = some (.error refusal, after)) :
    (reading >>= next) walker = some (.error refusal, after) := by
  change (reading walker).bind (fun outcome => ExceptT.bindCont next outcome.1 outcome.2) = _
  rw [read]
  rfl

theorem liftM_walk {walk : Walk β} {walker after : Walker} {value : β}
    (moved : walk walker = some (value, after)) :
    (liftM walk : Reading β) walker = some (.ok value, after) := by
  change (walk walker).bind (fun outcome => some (Except.ok outcome.1, outcome.2)) = _
  rw [moved]
  rfl

theorem bind_liftM {walk : Walk β} {next : β → Reading α} {walker after : Walker}
    {value : β} (moved : walk walker = some (value, after)) :
    ((liftM walk : Reading β) >>= next) walker = next value after :=
  bind_reading_ok (liftM_walk moved)

namespace Mirrors

variable {step : Parse β} {follow : β → Parse α} {reading : Nat → Reading β}
  {next : Nat → β → Reading α}

/-- A reading that nests no calls. -/
theorem at_once {reading : Reading β}
    (agrees : Agrees guise tokens depth (step parser) (reading (parser.walker tokens depth))) :
    Mirrors guise tokens depth (fun _ => reading) step parser :=
  .of_forall fun _ => agrees

/-- A reading that nests one call. -/
theorem call
    (mirrors : Mirrors guise tokens depth (fun calls => reading (calls + 1)) step parser) :
    Mirrors guise tokens depth reading step parser := by
  rw [Mirrors, ← Filter.map_add_atTop_eq_nat 1, Filter.eventually_map]
  exact mirrors

theorem pure (standing : parser.StandsIn guise tokens) (value : α) :
    Mirrors guise tokens depth (fun _ => Pure.pure value) (Pure.pure value) parser :=
  at_once ⟨standing, rfl⟩

/-- A step that is never refused is mirrored if its values are. -/
theorem of_ensures {reading : Reading β}
    (ensured : step.Ensures parser
      (fun value after => after.StandsIn guise tokens ∧
        reading (parser.walker tokens depth) = some (.ok value, after.walker tokens depth))
      (fun _ => False)) :
    Mirrors guise tokens depth (fun _ => reading) step parser := by
  apply at_once
  rw [Parse.Ensures] at ensured
  cases outcome : step parser with
  | ok value after =>
    rw [outcome] at ensured
    exact ensured
  | error error after =>
    rw [outcome] at ensured
    exact ensured.elim

theorem bind (first : Mirrors guise tokens depth reading step parser)
    (second : ∀ value after, after.StandsIn guise tokens → step parser = .ok value after →
      Mirrors guise tokens depth (fun calls => next calls value) (follow value) after) :
    Mirrors guise tokens depth (fun calls => reading calls >>= next calls) (step >>= follow)
      parser := by
  cases outcome : step parser with
  | ok value after =>
    rw [Mirrors, outcome] at first
    obtain ⟨_, standing, _⟩ := first.exists
    filter_upwards [first, second value after standing outcome] with calls read further
    change Agrees guise tokens depth (EStateM.bind step follow parser) _
    rw [EStateM.bind, outcome, bind_reading_ok read.2]
    exact further
  | error error after =>
    rw [Mirrors, outcome] at first
    filter_upwards [first] with calls read
    obtain ⟨token, place, read⟩ := read
    change Agrees guise tokens depth (EStateM.bind step follow parser) _
    rw [EStateM.bind, outcome]
    exact ⟨token, place, bind_reading_error read⟩

theorem ite {condition : Prop} [Decidable condition] {one other : Nat → Reading α}
    {first second : Parse α} (yes : Mirrors guise tokens depth one first parser)
    (no : Mirrors guise tokens depth other second parser) :
    Mirrors guise tokens depth (fun calls => if condition then one calls else other calls)
      (if condition then first else second) parser := by
  split
  · exact yes
  · exact no

theorem walk_bind {walk : Walk β} {value : β} {step : Parse α}
    (walks : walk (parser.walker tokens depth) = some (value, parser.walker tokens depth))
    (rest : Mirrors guise tokens depth (fun calls => next calls value) step parser) :
    Mirrors guise tokens depth (fun calls => liftM walk >>= next calls) step parser := by
  filter_upwards [rest] with calls agrees
  rw [bind_liftM walks]
  exact agrees

/-- A move that may nest calls. -/
theorem modify_bind {walk : Nat → Walk Unit} {change : Parser → Parser}
    {next : Nat → Unit → Reading α} {follow : Unit → Parse α}
    (walks : ∀ᶠ calls in Filter.atTop,
      walk calls (parser.walker tokens depth) = some ((), (change parser).walker tokens depth))
    (rest : Mirrors guise tokens depth (fun calls => next calls ()) (follow ())
      (change parser)) :
    Mirrors guise tokens depth (fun calls => liftM (walk calls) >>= next calls)
      (modify change >>= follow) parser := by
  filter_upwards [walks, rest] with calls walks agrees
  rw [bind_liftM walks]
  exact agrees

theorem inspect_bind {reading : Nat → Reading α} {view : Parser → β}
    (rest : Mirrors guise tokens depth reading (follow (view parser)) parser) :
    Mirrors guise tokens depth reading (Parse.inspect view >>= follow) parser :=
  rest

theorem get_bind {next : Nat → Walker → Reading α} {step : Parse α}
    (rest : Mirrors guise tokens depth (fun calls => next calls (parser.walker tokens depth)) step
      parser) :
    Mirrors guise tokens depth (fun calls => get >>= next calls) step parser :=
  rest

section Standing

variable (standing : parser.StandsIn guise tokens)

include standing

theorem peek_bind {next : Nat → Token → Reading α} {follow : Token → Parse α}
    (rest : Mirrors guise tokens depth (fun calls => next calls (guise.token parser.current))
      (follow parser.current) parser) :
    Mirrors guise tokens depth (fun calls => liftM peek >>= next calls)
      (Parse.current >>= follow) parser :=
  inspect_bind (walk_bind (peek_walker standing depth) rest)

theorem advance_bind {next : Nat → Unit → Reading α} {follow : Unit → Parse α}
    (rest : Mirrors guise tokens depth (fun calls => next calls ()) (follow ()) parser.advance) :
    Mirrors guise tokens depth (fun calls => liftM advance >>= next calls)
      (Parse.advance >>= follow) parser :=
  modify_bind (.of_forall fun _ => advance_walker standing depth) rest

theorem eat (mark : String) :
    Mirrors guise tokens depth (fun _ => liftM (ByPlace.eat mark)) (Parse.eat mark) parser := by
  have walks := eat_walker standing depth mark
  apply of_ensures
  rw [Parse.ensures_eat]
  by_cases found : parser.current.isPunctuation mark = true
  · rw [if_pos found] at walks ⊢
    exact ⟨standing.advance, liftM_walk walks⟩
  · rw [if_neg found] at walks ⊢
    exact ⟨standing, liftM_walk walks⟩

theorem expect (mark : String) :
    Mirrors guise tokens depth (fun _ => liftM (ByPlace.expect mark)) (Parse.expect mark)
      parser := by
  have walks := expect_walker standing depth mark
  apply of_ensures
  simp only [Parse.expect, Parse.ensures_bind, Parse.ensures_eat]
  by_cases found : parser.current.isPunctuation mark = true
  · rw [if_pos found] at walks ⊢
    exact ⟨standing.advance, liftM_walk walks⟩
  · rw [if_neg found] at walks ⊢
    exact ⟨standing.note _, liftM_walk walks⟩

end Standing

end Mirrors

/-! ### Repetitions -/

section Levels

variable {statementStep expressionStep : Parse Node}

theorem mirrors_statementsWithin (follows : Follows guise tokens depth statement statementStep)
    (consumes : MoveLaw.consumption.Governs Node.mentions statementStep) {stops : Token → Bool}
    (blind : ∀ token, stops (guise.token token) = stops token) (allowance : List Token)
    (parser : Parser) (standing : parser.StandsIn guise tokens)
    (enough : parser.rest.length < allowance.length) :
    Mirrors guise tokens depth (statementsUntil · stops)
      (Parse.statementsWithin statementStep stops allowance) parser := by
  induction allowance generalizing parser with
  | nil => exact absurd enough (Nat.not_lt_zero _)
  | cons round allowance ih =>
    have shorter := (Parser.Consumes.skipSeparators parser).length_le
    rw [List.length_cons] at enough
    apply Mirrors.call
    simp only [statementsUntil, Parse.statementsWithin]
    refine .modify_bind (skipSeparators_walker standing depth) ?_
    have standing := standing.skipSeparators
    refine .inspect_bind (.walk_bind (atBoundary_walker standing depth)
      (.walk_bind (peek_walker standing depth) ?_))
    rw [blind]
    by_cases ended : (parser.skipSeparators.atBoundary ||
      stops parser.skipSeparators.current) = true
    · simp only [if_pos ended]
      exact .pure standing []
    · simp only [if_neg ended]
      have remaining : parser.skipSeparators.rest ≠ [] := by
        intro finished
        simp [Parser.atBoundary, Parser.atEnd, finished] at ended
      refine .inspect_bind (.get_bind ?_)
      refine (follows _ standing).bind fun node after standing outcome => ?_
      have consumed := Parse.Ensures.of_ok (consumes _) outcome
      have fewer := Parser.Consumes.ensureProgress_length consumed remaining
      refine .modify_bind (.of_forall fun _ => ensureProgress_walker standing depth _) ?_
      refine (ih _ (standing.ensureProgress _) (by omega)).bind
        fun nodes after standing _ => ?_
      exact .pure standing (node :: nodes)

theorem follows_statements (follows : Follows guise tokens depth statement statementStep)
    (consumes : MoveLaw.consumption.Governs Node.mentions statementStep) {stops : Token → Bool}
    (blind : ∀ token, stops (guise.token token) = stops token) :
    Follows guise tokens depth (statementsUntil · stops) (Parse.statements statementStep stops) :=
  fun parser standing => .inspect_bind (mirrors_statementsWithin follows consumes blind
    parser.allowance parser standing (by simp [Parser.allowance]))

theorem mirrors_argumentsWithin (follows : Follows guise tokens depth expression expressionStep)
    (consumes : MoveLaw.consumption.Governs Node.mentions expressionStep) (allowance : List Token)
    (parser : Parser) (standing : parser.StandsIn guise tokens)
    (enough : parser.rest.length < allowance.length) :
    Mirrors guise tokens depth arguments (Parse.argumentsWithin expressionStep allowance)
      parser := by
  induction allowance generalizing parser with
  | nil => exact absurd enough (Nat.not_lt_zero _)
  | cons round allowance ih =>
    rw [List.length_cons] at enough
    apply Mirrors.call
    simp only [arguments, Parse.argumentsWithin]
    refine .inspect_bind (.walk_bind (peek_walker standing depth)
      (.walk_bind (atBoundary_walker standing depth) ?_))
    rw [guise.isPunctuation_eq]
    by_cases ended : (parser.current.isPunctuation ")" || parser.atBoundary) = true
    · simp only [if_pos ended]
      exact .pure standing []
    · simp only [if_neg ended]
      have remaining : parser.rest ≠ [] := by
        intro finished
        simp [Parser.atBoundary, Parser.atEnd, finished] at ended
      refine .inspect_bind (.get_bind ?_)
      refine (follows _ standing).bind fun node after standing outcome => ?_
      refine (Mirrors.eat standing ",").bind fun _ last standing passed => ?_
      have eating : MoveLaw.consumption.GovernsSilently (Parse.eat ",") := MoveLaw.governs_eat ","
      have consumed := Parse.Ensures.of_ok (consumes _) outcome
      have eaten := Parse.Ensures.of_ok (eating _) passed
      have fewer := Parser.Consumes.ensureProgress_length
        (Parser.Consumes.trans consumed eaten) remaining
      refine .modify_bind (.of_forall fun _ => ensureProgress_walker standing depth _) ?_
      refine (ih _ (standing.ensureProgress _) (by omega)).bind
        fun nodes after standing _ => ?_
      exact .pure standing (node :: nodes)

theorem follows_arguments (follows : Follows guise tokens depth expression expressionStep)
    (consumes : MoveLaw.consumption.Governs Node.mentions expressionStep) :
    Follows guise tokens depth arguments (Parse.arguments expressionStep) :=
  fun parser standing => .inspect_bind (mirrors_argumentsWithin follows consumes
    parser.allowance parser standing (by simp [Parser.allowance]))

/-! ### Statements -/

theorem follows_ifStatement (followsStatement : Follows guise tokens depth statement statementStep)
    (followsExpression : Follows guise tokens depth expression expressionStep) :
    Follows guise tokens depth ifStatement (Parse.ifStatement statementStep expressionStep) := by
  intro parser standing
  apply Mirrors.call
  simp only [ifStatement, Parse.ifStatement]
  refine .advance_bind standing ?_
  refine (Mirrors.expect standing.advance "(").bind fun _ parser standing _ => ?_
  refine (followsExpression parser standing).bind fun condition parser standing _ => ?_
  refine (Mirrors.expect standing ")").bind fun _ parser standing _ => ?_
  refine (followsStatement parser standing).bind fun thenBranch parser standing _ => ?_
  rw [Parse.elsePart]
  refine .modify_bind (.of_forall fun _ => skipBeforeElse_walker standing depth) ?_
  have standing := standing.skipBeforeElse
  refine .peek_bind standing ?_
  rw [guise.isKeyword_eq]
  refine .ite ?_ (.pure standing _)
  refine .advance_bind standing ?_
  refine (followsStatement _ standing.advance).bind fun elseBranch parser standing _ => ?_
  exact .pure standing _

theorem follows_whileStatement
    (followsStatement : Follows guise tokens depth statement statementStep)
    (followsExpression : Follows guise tokens depth expression expressionStep) :
    Follows guise tokens depth whileStatement
      (Parse.whileStatement statementStep expressionStep) := by
  intro parser standing
  apply Mirrors.call
  simp only [whileStatement, Parse.whileStatement]
  refine .advance_bind standing ?_
  refine (Mirrors.expect standing.advance "(").bind fun _ parser standing _ => ?_
  refine (followsExpression parser standing).bind fun condition parser standing _ => ?_
  refine (Mirrors.expect standing ")").bind fun _ parser standing _ => ?_
  refine (followsStatement parser standing).bind fun body parser standing _ => ?_
  exact .pure standing _

theorem follows_bracedBlock (follows : Follows guise tokens depth statement statementStep)
    (consumes : MoveLaw.consumption.Governs Node.mentions statementStep) :
    Follows guise tokens depth bracedBlock (Parse.bracedBlock statementStep) := by
  intro parser standing
  apply Mirrors.call
  simp only [bracedBlock, Parse.bracedBlock]
  refine .advance_bind standing ?_
  refine (follows_statements follows consumes
    (fun token => guise.isPunctuation_eq token "\x7d") _ standing.advance).bind
      fun body parser standing _ => ?_
  refine (Mirrors.expect standing "\x7d").bind fun _ parser standing _ => ?_
  exact .pure standing _

theorem follows_parenthesized (follows : Follows guise tokens depth statement statementStep)
    (consumes : MoveLaw.consumption.Governs Node.mentions statementStep) :
    Follows guise tokens depth parenthesized (Parse.parenthesized statementStep) := by
  intro parser standing
  apply Mirrors.call
  simp only [parenthesized, Parse.parenthesized]
  refine (follows parser standing).bind fun first parser standing _ => ?_
  refine .peek_bind standing ?_
  rw [guise.isPunctuation_eq]
  refine .ite ?_ ?_
  · refine (follows_statements follows consumes
      (fun token => guise.isPunctuation_eq token ")") _ standing).bind
        fun more parser standing _ => ?_
    refine (Mirrors.expect standing ")").bind fun _ parser standing _ => ?_
    exact .pure standing _
  · refine (Mirrors.expect standing ")").bind fun _ parser standing _ => ?_
    exact .pure standing first

/-! ### Primaries -/

theorem mirrors_bareName (standing : parser.StandsIn guise tokens) (name : String) :
    Mirrors guise tokens depth (fun _ => liftM (bareName name)) (Parse.bareName name) parser := by
  apply Mirrors.of_ensures
  rw [Parse.bareName, bareName]
  cases constant? name with
  | some value => exact ⟨standing, rfl⟩
  | none =>
    cases HostVar.ofName? name with
    | some var => exact ⟨standing, rfl⟩
    | none => exact ⟨⟨standing.ahead, standing.ends, standing.inner⟩, rfl⟩

theorem follows_afterName (follows : Follows guise tokens depth expression expressionStep)
    (consumes : MoveLaw.consumption.Governs Node.mentions expressionStep) (name : String) :
    Follows guise tokens depth (afterName · name) (Parse.afterName expressionStep name) := by
  intro parser standing
  apply Mirrors.call
  simp only [afterName, Parse.afterName]
  refine (Mirrors.eat standing "(").bind fun called parser standing _ => ?_
  refine .ite ?_ ?_
  · refine (follows_arguments follows consumes parser standing).bind
      fun arguments parser standing _ => ?_
    refine (Mirrors.expect standing ")").bind fun _ parser standing _ => ?_
    exact .at_once ⟨⟨standing.ahead, standing.ends, standing.inner⟩, rfl⟩
  · refine (Mirrors.eat standing "[").bind fun indexed parser standing _ => ?_
    refine .ite ?_ (mirrors_bareName standing name)
    refine (follows parser standing).bind fun index parser standing _ => ?_
    refine (Mirrors.expect standing "]").bind fun _ parser standing _ => ?_
    exact .pure standing _

theorem mirrors_missingOperand (depth : Nat) (standing : parser.StandsIn guise tokens)
    (token : Token) :
    Mirrors guise tokens depth (fun _ => pure (.number 0.0)) (Parse.missingOperand token) parser :=
  .at_once ⟨standing.note _, rfl⟩

theorem follows_primary (followsStatement : Follows guise tokens depth statement statementStep)
    (consumesStatement : MoveLaw.consumption.Governs Node.mentions statementStep)
    (followsExpression : Follows guise tokens depth expression expressionStep)
    (consumesExpression : MoveLaw.consumption.Governs Node.mentions expressionStep) :
    Follows guise tokens depth primary (Parse.primary statementStep expressionStep) := by
  intro parser standing
  apply Mirrors.call
  simp only [primary, Parse.primary]
  refine .peek_bind standing ?_
  have missing := mirrors_missingOperand depth standing parser.current
  rw [guise.kind_eq]
  cases kind : parser.current.kind with
  | number =>
    have text := guise.text_eq parser.current (by simp [kind])
    refine .advance_bind standing ?_
    rw [Token.value, text]
    exact .pure standing.advance _
  | string =>
    have text := guise.text_eq parser.current (by simp [kind])
    refine .advance_bind standing ?_
    rw [text]
    exact .pure standing.advance _
  | identifier =>
    have text := guise.text_eq parser.current (by simp [kind])
    dsimp only
    rw [guise.isSectionMarker_eq, text]
    refine .ite missing (.advance_bind standing ?_)
    exact follows_afterName followsExpression consumesExpression _ _ standing.advance
  | keyword =>
    have text := guise.text_eq parser.current (by simp [kind])
    dsimp only
    rw [text]
    exact .ite (followsStatement parser standing) missing
  | punctuation =>
    have text := guise.text_eq parser.current (by simp [kind])
    dsimp only
    rw [text]
    refine .ite (.advance_bind standing ?_) missing
    exact follows_parenthesized followsStatement consumesStatement _ standing.advance
  | operator | comment | newline | endOfFile => exact missing

/-! ### Expressions -/

/-- What `binary` does behind its first operand. -/
def runOn (calls : Nat) (left : Node) (levels : Nat) : Reading Node :=
  (do
    let (outcome, levels) ← operators calls left levels
    leave levels
    return outcome : Walk (Except NestingError Node))

theorem binary_succ (calls : Nat) :
    binary (calls + 1) = unary calls >>= fun left => runOn calls left 0 := by
  rw [binary]
  rfl

/-- A run of binary operators on which some levels were entered does what a step does, and leaves
these levels in the end. -/
def RunMirrors (guise : Guise) (tokens : Array Token) (depth : Nat) (left : Node) (levels : Nat)
    (step : Parse Node) (parser : Parser) : Prop :=
  ∀ᶠ calls in Filter.atTop, Agrees guise tokens (depth - levels) (step parser)
    (runOn calls left levels (parser.walker tokens depth))

def RunFollows (guise : Guise) (tokens : Array Token) (depth : Nat) (run : Node → Parse Node) :
    Prop :=
  ∀ (left : Node) (levels : Nat) (parser : Parser), parser.StandsIn guise tokens →
    levels ≤ depth → RunMirrors guise tokens depth left levels (run left) parser

variable {unaryStep : Parse Node} {run : Node → Parse Node}

theorem follows_binary (followsUnary : Follows guise tokens depth unary unaryStep)
    (followsRun : RunFollows guise tokens depth run) :
    Follows guise tokens depth binary (unaryStep >>= run) := by
  intro parser standing
  apply Mirrors.call
  simp only [binary_succ]
  exact (followsUnary parser standing).bind fun left parser standing _ =>
    followsRun left 0 parser standing (Nat.zero_le depth)

theorem follows_conditional (followsUnary : Follows guise tokens depth unary unaryStep)
    (followsRun : RunFollows guise tokens depth run)
    (followsExpression : Follows guise tokens depth expression expressionStep) :
    Follows guise tokens depth conditional
      (Parse.conditional unaryStep run expressionStep) := by
  intro parser standing
  apply Mirrors.call
  simp only [conditional, Parse.conditional]
  rw [← bind_assoc]
  refine (follows_binary followsUnary followsRun parser standing).bind
    fun condition parser standing _ => ?_
  refine .peek_bind standing ?_
  rw [guise.isOperator_eq]
  refine .ite (.advance_bind standing ?_) (.pure standing condition)
  refine (followsExpression _ standing.advance).bind fun thenBranch parser standing _ => ?_
  refine (Mirrors.eat standing ":").bind fun found parser standing _ => ?_
  refine .ite ?_ (.pure standing _)
  refine (followsExpression parser standing).bind fun elseBranch parser standing _ => ?_
  exact .pure standing _

theorem follows_assignment (followsUnary : Follows guise tokens depth unary unaryStep)
    (followsRun : RunFollows guise tokens depth run)
    (followsExpression : Follows guise tokens depth expression expressionStep) :
    Follows guise tokens depth assignment
      (Parse.expressionBody unaryStep run expressionStep) := by
  intro parser standing
  apply Mirrors.call
  simp only [assignment, Parse.expressionBody]
  refine (follows_conditional followsUnary followsRun followsExpression parser standing).bind
    fun target parser standing _ => ?_
  refine .peek_bind standing ?_
  rw [guise.operator?_eq]
  cases parser.current.operator? AssignOp.ofSymbol? with
  | some op =>
    refine .advance_bind standing ?_
    refine (followsExpression _ standing.advance).bind fun value parser standing _ => ?_
    exact .pure standing _
  | none => exact .pure standing target

/-! ### Levels of nesting -/

theorem leave_walker (parser : Parser) (levels depth : Nat) (entered : levels ≤ depth) :
    leave levels (parser.walker tokens depth) =
      some ((), parser.walker tokens (depth - levels)) := by
  have possible : (StateT.lift (if levels ≤ depth then some () else none) : Walk Unit)
      (parser.walker tokens depth) = some ((), parser.walker tokens depth) := by
    rw [if_pos entered]
    rfl
  rw [leave]
  exact (bind_walk rfl).trans (bind_walk possible)

theorem enter_walker_of_lt (parser : Parser) (below : depth < nestingLimit) :
    enter (parser.walker tokens depth) = some (.ok (), parser.walker tokens (depth + 1)) := by
  rw [enter]
  change (if nestingLimit < depth + 1 then _ else pure () : Reading Unit)
    (parser.walker tokens (depth + 1)) = _
  rw [if_neg (by omega)]
  rfl

theorem enter_walker_of_le (standing : parser.StandsIn guise tokens)
    (full : nestingLimit ≤ depth) :
    enter (parser.walker tokens depth) =
      some (.error ⟨(guise.token parser.current).line, (guise.token parser.current).column⟩,
        parser.walker tokens (depth + 1)) := by
  rw [enter]
  change (if nestingLimit < depth + 1 then _ else pure () : Reading Unit)
    (parser.walker tokens (depth + 1)) = _
  rw [if_pos (by omega), bind_liftM (peek_walker standing (depth + 1))]
  rfl

theorem Agrees.leaving {outcome : EStateM.Result NestingError Parser α} {reading : Reading α}
    {walker : Walker} (agrees : Agrees guise tokens (depth + 1) outcome (reading walker)) :
    Agrees guise tokens depth outcome (leaving reading walker) := by
  cases outcome with
  | ok value after =>
    exact ⟨agrees.1, (bind_walk agrees.2).trans
      (bind_walk (leave_walker after 1 (depth + 1) (by omega)))⟩
  | error error after =>
    obtain ⟨token, place, read⟩ := agrees
    exact ⟨token, place, (bind_walk read).trans
      (bind_walk (leave_walker after 1 (depth + 1 + 1) (by omega)))⟩

theorem follows_statement (below : depth < nestingLimit)
    (followsStatement : Follows guise tokens (depth + 1) statement statementStep)
    (consumesStatement : MoveLaw.consumption.Governs Node.mentions statementStep)
    (followsExpression : Follows guise tokens (depth + 1) expression expressionStep) :
    Follows guise tokens depth statement (Parse.statementBody statementStep expressionStep) := by
  intro parser standing
  have branches : Mirrors guise tokens (depth + 1)
      (fun calls =>
        if parser.current.isKeyword "if" then ifStatement calls
        else if parser.current.isKeyword "while" then whileStatement calls
        else if parser.current.isPunctuation "\x7b" then bracedBlock calls
        else expression calls)
      (if parser.current.isKeyword "if" then Parse.ifStatement statementStep expressionStep
      else if parser.current.isKeyword "while" then
        Parse.whileStatement statementStep expressionStep
      else if parser.current.isPunctuation "\x7b" then Parse.bracedBlock statementStep
      else expressionStep) parser :=
    .ite (follows_ifStatement followsStatement followsExpression parser standing)
      (.ite (follows_whileStatement followsStatement followsExpression parser standing)
        (.ite (follows_bracedBlock followsStatement consumesStatement parser standing)
          (followsExpression parser standing)))
  apply Mirrors.call
  filter_upwards [branches] with calls agrees
  rw [statement, bind_reading_ok (enter_walker_of_lt parser below),
    bind_liftM (peek_walker standing _), guise.isKeyword_eq, guise.isKeyword_eq,
    guise.isPunctuation_eq]
  exact agrees.leaving

theorem follows_expression (below : depth < nestingLimit)
    (followsUnary : Follows guise tokens (depth + 1) unary unaryStep)
    (followsRun : RunFollows guise tokens (depth + 1) run)
    (followsExpression : Follows guise tokens (depth + 1) expression expressionStep) :
    Follows guise tokens depth expression
      (Parse.expressionBody unaryStep run expressionStep) := by
  intro parser standing
  apply Mirrors.call
  filter_upwards [follows_assignment followsUnary followsRun followsExpression parser standing]
    with calls agrees
  rw [expression, bind_reading_ok (enter_walker_of_lt parser below)]
  exact agrees.leaving

/-- The operand of a unary operator, one level deeper. -/
def operand (calls : Nat) : Reading Node := do
  enter
  advance
  leaving (unary calls)

theorem follows_unary (followsPrimary :
      Follows guise tokens depth primary (Parse.primary statementStep expressionStep))
    {deeper : Parse Node} (descends : Follows guise tokens depth operand deeper) :
    Follows guise tokens depth unary (Parse.unaryBody deeper statementStep expressionStep) := by
  intro parser standing
  apply Mirrors.call
  simp only [unary, Parse.unaryBody]
  refine .peek_bind standing ?_
  rw [guise.operator?_eq]
  cases parser.current.operator? UnaryOp.ofSymbol? with
  | some op =>
    have descent : Mirrors guise tokens depth
        (fun calls => operand calls >>= fun operand => pure (Node.unary op operand))
        (deeper >>= fun operand => pure (Node.unary op operand)) parser :=
      (descends parser standing).bind fun operand parser standing _ => .pure standing _
    simpa only [operand, bind_assoc] using descent
  | none => exact followsPrimary parser standing

/-! ### Runs of operators -/

section Runs

variable {left : Node} {levels : Nat} (standing : parser.StandsIn guise tokens) (calls : Nat)

include standing

theorem operators_of_none (last : parser.current.operator? BinaryOp.ofSymbol? = none) :
    operators (calls + 1) left levels (parser.walker tokens depth) =
      some ((.ok left, levels), parser.walker tokens depth) := by
  rw [operators, bind_walk (peek_walker standing depth), guise.operator?_eq, last]
  rfl

variable {op : BinaryOp} (found : parser.current.operator? BinaryOp.ofSymbol? = some op)

include found

theorem operators_of_le (full : nestingLimit ≤ depth) :
    operators (calls + 1) left levels (parser.walker tokens depth) =
      some ((.error ⟨(guise.token parser.current).line, (guise.token parser.current).column⟩,
        levels), parser.walker tokens (depth + 1)) := by
  rw [operators, bind_walk (peek_walker standing depth), guise.operator?_eq, found]
  exact bind_walk (enter_walker_of_le standing full)

variable (below : depth < nestingLimit) {after : Walker}

include below

theorem operators_of_ok {right : Node}
    (read : unary calls (parser.advance.walker tokens (depth + 1)) = some (.ok right, after)) :
    operators (calls + 1) left levels (parser.walker tokens depth) =
      operators calls (.binary op left right) (levels + 1) after := by
  rw [operators, bind_walk (peek_walker standing depth), guise.operator?_eq, found]
  refine (bind_walk (enter_walker_of_lt parser below)).trans ?_
  refine (bind_walk (advance_walker standing (depth + 1))).trans ?_
  exact bind_walk read

theorem operators_of_error {refusal : NestingError}
    (read : unary calls (parser.advance.walker tokens (depth + 1)) =
      some (.error refusal, after)) :
    operators (calls + 1) left levels (parser.walker tokens depth) =
      some ((.error refusal, levels + 1), after) := by
  rw [operators, bind_walk (peek_walker standing depth), guise.operator?_eq, found]
  refine (bind_walk (enter_walker_of_lt parser below)).trans ?_
  refine (bind_walk (advance_walker standing (depth + 1))).trans ?_
  exact bind_walk read

end Runs

theorem runOn_of_operators {calls : Nat} {left : Node} {levels entered : Nat} {walker : Walker}
    {outcome : Except NestingError Node} {reached : Nat}
    (ran : operators calls left levels walker =
      some ((outcome, entered), parser.walker tokens reached))
    (bound : entered ≤ reached) :
    runOn calls left levels walker = some (outcome, parser.walker tokens (reached - entered)) :=
  (bind_walk ran).trans (bind_walk (leave_walker parser entered reached bound))

theorem runOn_congr {calls fewer : Nat} {left next : Node} {levels entered : Nat}
    {walker after : Walker}
    (same : operators calls left levels walker = operators fewer next entered after) :
    runOn calls left levels walker = runOn fewer next entered after := by
  change (operators calls left levels walker).bind _ = (operators fewer next entered after).bind _
  rw [same]

/-- A run that nests one call. -/
theorem RunMirrors.call {left : Node} {levels : Nat} {step : Parse Node}
    (agrees : ∀ᶠ calls in Filter.atTop, Agrees guise tokens (depth - levels) (step parser)
      (runOn (calls + 1) left levels (parser.walker tokens depth))) :
    RunMirrors guise tokens depth left levels step parser := by
  rw [RunMirrors, ← Filter.map_add_atTop_eq_nat 1, Filter.eventually_map]
  exact agrees

theorem runFollows_runBody {deeper : BinaryOp → Node → Parse Node}
    (descends : ∀ (op : BinaryOp) (left : Node) (levels : Nat) (parser : Parser),
      parser.StandsIn guise tokens → levels ≤ depth →
      parser.current.operator? BinaryOp.ofSymbol? = some op →
        RunMirrors guise tokens depth left levels (deeper op left) parser) :
    RunFollows guise tokens depth (Parse.runBody deeper) := by
  intro left levels parser standing bound
  rw [RunMirrors, Parse.runBody, Parse.current_bind]
  cases found : parser.current.operator? BinaryOp.ofSymbol? with
  | some op => exact descends op left levels parser standing bound found
  | none =>
    apply RunMirrors.call
    filter_upwards with calls
    exact ⟨standing, runOn_of_operators (operators_of_none standing calls found) bound⟩

/-- Where no level is left, an operator is refused. -/
theorem runFollows_refuse (full : nestingLimit ≤ depth) :
    RunFollows guise tokens depth (Parse.runBody fun _ _ => Parse.refuse) := by
  apply runFollows_runBody
  intro op left levels parser standing bound found
  apply RunMirrors.call
  filter_upwards with calls
  have ran : operators (calls + 1) left levels (parser.walker tokens depth) = _ :=
    operators_of_le standing calls found full
  have place : depth + 1 - levels = depth - levels + 1 := Nat.sub_add_comm bound
  refine ⟨parser.current, rfl, ?_⟩
  rw [runOn_of_operators ran (Nat.le_succ_of_le bound), place]
  rfl

/-- Where levels are left, an operator enters one, and the run goes on a level deeper. -/
theorem runFollows_deepen (below : depth < nestingLimit)
    (followsUnary : Follows guise tokens (depth + 1) unary unaryStep)
    (followsRun : RunFollows guise tokens (depth + 1) run) :
    RunFollows guise tokens depth (Parse.runBody fun op left => do
      Parse.advance
      let right ← unaryStep
      run (.binary op left right)) := by
  apply runFollows_runBody
  intro op left levels parser standing bound found
  have reads := followsUnary _ standing.advance
  rw [Mirrors] at reads
  apply RunMirrors.call
  change ∀ᶠ calls in Filter.atTop, Agrees guise tokens (depth - levels)
    (EStateM.bind unaryStep (fun right => run (.binary op left right)) parser.advance) _
  rw [EStateM.bind]
  cases outcome : unaryStep parser.advance with
  | ok right after =>
    rw [outcome] at reads
    obtain ⟨_, moved, _⟩ := reads.exists
    have goes_on := followsRun (.binary op left right) (levels + 1) after moved (by omega)
    rw [RunMirrors, Nat.add_sub_add_right] at goes_on
    filter_upwards [reads, goes_on] with calls read further
    rw [runOn_congr (operators_of_ok standing calls found below read.2)]
    exact further
  | error error after =>
    rw [outcome] at reads
    filter_upwards [reads] with calls read
    obtain ⟨token, origin, read⟩ := read
    have ran : operators (calls + 1) left levels (parser.walker tokens depth) = _ :=
      operators_of_error standing calls found below read
    have place : depth + 1 + 1 - (levels + 1) = depth - levels + 1 := by omega
    refine ⟨token, origin, ?_⟩
    rw [runOn_of_operators ran (by omega), place]

/-! ### The whole grammar -/

/-- The readings at a depth do what the parsers of one level of the grammar do. -/
structure FollowsLevel (guise : Guise) (tokens : Array Token) (depth : Nat) (level : Grammar) :
    Prop where
  statement : Follows guise tokens depth statement level.statement
  expression : Follows guise tokens depth expression level.expression
  unary : Follows guise tokens depth unary level.unary
  run : RunFollows guise tokens depth level.run

theorem followsLevel_exhausted (full : nestingLimit ≤ depth) :
    FollowsLevel guise tokens depth .exhausted := by
  have refuses (next : Nat → Unit → Reading Node) :
      Follows guise tokens depth (fun calls => enter >>= next calls) Parse.refuse := by
    intro parser standing
    filter_upwards with calls
    rw [bind_reading_error (enter_walker_of_le standing full)]
    exact ⟨parser.current, rfl, rfl⟩
  have followsStatement : Follows guise tokens depth ByPlace.statement Parse.refuse := by
    intro parser standing
    apply Mirrors.call
    simp only [ByPlace.statement]
    exact refuses _ parser standing
  have followsExpression : Follows guise tokens depth ByPlace.expression Parse.refuse := by
    intro parser standing
    apply Mirrors.call
    simp only [ByPlace.expression]
    exact refuses _ parser standing
  have consumes : MoveLaw.consumption.Governs Node.mentions Parse.refuse :=
    MoveLaw.governs_refuse
  constructor
  case statement => exact followsStatement
  case expression => exact followsExpression
  case unary =>
    exact follows_unary (follows_primary followsStatement consumes followsExpression consumes)
      (refuses _)
  case run => exact runFollows_refuse full

theorem FollowsLevel.deepen {below : Grammar} (room : depth < nestingLimit)
    (consumes : MoveLaw.consumption.GovernsLevel below)
    (follows : FollowsLevel guise tokens (depth + 1) below) :
    FollowsLevel guise tokens depth below.deepen := by
  have followsStatement : Follows guise tokens depth ByPlace.statement below.deepen.statement :=
    follows_statement room follows.statement consumes.statement follows.expression
  have followsExpression :
      Follows guise tokens depth ByPlace.expression below.deepen.expression :=
    follows_expression room follows.unary follows.run follows.expression
  have consumesDeeper := consumes.deepen
  constructor
  case statement => exact followsStatement
  case expression => exact followsExpression
  case unary =>
    refine follows_unary (follows_primary followsStatement consumesDeeper.statement
      followsExpression consumesDeeper.expression) fun parser standing => ?_
    filter_upwards [follows.unary _ standing.advance] with calls agrees
    rw [operand, bind_reading_ok (enter_walker_of_lt parser room),
      bind_liftM (advance_walker standing (depth + 1))]
    exact agrees.leaving
  case run => exact runFollows_deepen room follows.unary follows.run

/-- At every depth, the readings do what the grammar does with what is left of the budget. -/
theorem follows_grammar (guise : Guise) (tokens : Array Token) (budget depth : Nat)
    (left : nestingLimit - depth = budget) :
    FollowsLevel guise tokens depth (grammar budget) := by
  induction budget generalizing depth with
  | zero => exact followsLevel_exhausted (by omega)
  | succ budget ih =>
    exact (ih (depth + 1) (by omega)).deepen (by omega) (MoveLaw.consumption.grammar budget)

end Levels

end ByPlace

end EffectScript.Language
