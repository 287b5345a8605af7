import EffectScript.Proofs.ParserHistory
import EffectScript.Proofs.ParserTotality

/-!
# Levels entered and left

A call of a parser enters levels of nesting and leaves them again.  If it succeeds, the parser is as
deep as it was before, whatever the tokens were.  If it is refused, the levels that were entered are
left as well, but not the one that was refused: it stays counted.  So after any calls the depth has
grown by the number of refusals, each of which takes a level from the budget of all later calls.
-/

namespace EffectScript.Language

/-! ### One step -/

/-- Moves keep the depth, and a refusal adds one level to it. -/
def MoveLaw.balance : MoveLaw where
  moves before _ after := after.depth = before.depth
  fails before after := after.depth = before.depth + 1
  refl _ := rfl
  trans earlier later := later.trans earlier
  fails_of_moves moved refused := refused.trans (congrArg (· + 1) moved)
  refuse _ := rfl
  advance parser := by
    rw [Parser.advance]
    split <;> rfl
  note _ _ := rfl
  symbol _ _ _ _ := rfl
  host _ _ _ _ := rfl
  function _ _ := rfl

/-- A parser stays in the array, also where it is refused. -/
def MoveLaw.remaining (tokens : Array Token) : MoveLaw :=
  (standing .plain tokens).throughout fun _ standing =>
    ⟨standing.ahead, standing.ends, standing.inner⟩

/-- Parsing the items of a program obeys a law that permits markers, and so does the whole, if the
law does not look at the tables that are handed out. -/
theorem MoveLaw.ensures_program_after {law : MoveLaw} {good : Parser → Prop}
    (marks : ∀ parser name, law.moves parser [.marker name] parser) (parser : Parser)
    (released : ∀ {mentions last}, law.moves parser mentions last → ∀ symbols functions,
      good { last with symbols, functions }) :
    Parse.program.Ensures parser (fun _ after => good after) (law.fails parser) := by
  rw [Parse.ensures_program]
  have governs := (law.grammar (nestingLimit - parser.depth)).statement
  exact (governs_itemsWithin marks governs parser.allowance parser).imp
    (fun _ _ moved => released moved _ _) fun _ => id

/-! ### Calls by place -/

/-- Whether a call was refused. -/
def ParserAnswer.isRefusal : ParserAnswer → Bool
  | .expression outcome => !outcome.isOk
  | .program outcome => !outcome.isOk

namespace ByPlace

/-- The answer to a call. -/
def answer (nested : Nat) : ParserCall → Walk ParserAnswer
  | .expression => return .expression (← (expression nested).run)
  | .program => return .program (← (program nested).run)

/-- The answers to calls in sequence. -/
def answers (nested : Nat) : List ParserCall → Walk (List ParserAnswer)
  | [] => return []
  | call :: rest => do
    let found ← answer nested call
    let more ← answers nested rest
    return found :: more

variable {α : Type} {tokens : Array Token} {parser : Parser}

/-- A call that a parser takes in an array: it stays in the array, it returns at its depth or one
level deeper, and parsing by place returns with the same outcome, at the same place and depth. -/
structure Returns (tokens : Array Token) (parser : Parser) (reading : Nat → Reading α)
    (outcome : Except NestingError α) (after : Parser) : Prop where
  standing : after.StandsIn .plain tokens
  depth_eq : after.depth = parser.depth + if !outcome.isOk then 1 else 0
  reads : ∀ᶠ nested in Filter.atTop, reading nested (parser.walker tokens parser.depth) =
    some (outcome, after.walker tokens after.depth)

theorem Mirrors.returns {reading : Nat → Reading α} {step : Parse α}
    (mirrors : Mirrors .plain tokens parser.depth reading step parser)
    (stays : step.Ensures parser (fun _ after => after.StandsIn .plain tokens)
      fun after => after.StandsIn .plain tokens)
    (balances : step.Ensures parser (fun _ after => after.depth = parser.depth)
      fun after => after.depth = parser.depth + 1) :
    Returns tokens parser reading (parser.run step).1 (parser.run step).2 := by
  cases outcome : (parser.run step).1 with
  | ok value =>
    have depth := balances.run_ok outcome
    refine ⟨stays.run_ok outcome, depth, ?_⟩
    rw [depth]
    exact mirrors.run_ok outcome
  | error error =>
    have depth := balances.run_error outcome
    refine ⟨stays.run_error outcome, depth, ?_⟩
    filter_upwards [mirrors.run_error outcome] with nested read
    obtain ⟨token, rfl, read⟩ := read
    rw [depth]
    exact read

variable (standing : parser.StandsIn .plain tokens)

include standing

theorem returns_expression :
    Returns tokens parser expression (parser.run Parse.expression).1
      (parser.run Parse.expression).2 := by
  have follows := (follows_grammar .plain tokens _ parser.depth rfl).expression
  have mirrors : Mirrors .plain tokens parser.depth expression Parse.expression parser :=
    follows parser standing
  refine mirrors.returns ?_ (MoveLaw.balance.governs_expression parser)
  exact ((MoveLaw.remaining tokens).governs_expression parser).imp
    (fun _ _ moved => moved standing) fun _ ⟨_, moved⟩ => moved standing

theorem returns_program :
    Returns tokens parser program (parser.run Parse.program).1 (parser.run Parse.program).2 := by
  refine (mirrors_program standing).returns ?_ ?_
  · refine ((MoveLaw.remaining tokens).ensures_program_after (fun _ _ => id) parser ?_).imp
      (fun _ _ => id) fun _ ⟨_, moved⟩ => moved standing
    intro mentions last moved symbols functions
    have stays := moved standing
    exact ⟨stays.ahead, stays.ends, stays.inner⟩
  · exact MoveLaw.balance.ensures_program_after (fun _ _ => rfl) parser fun moved _ _ => moved

end ByPlace

namespace Parser

/-- The parser after calls in sequence. -/
def afterCalls (parser : Parser) (calls : List ParserCall) : Parser :=
  calls.foldl (fun parser call => (parser.answer call).2) parser

variable {tokens : Array Token} {parser : Parser}

/-- One call. -/
theorem StandsIn.answer (standing : parser.StandsIn .plain tokens) (call : ParserCall) :
    (parser.answer call).2.StandsIn .plain tokens ∧
      (parser.answer call).2.depth =
        parser.depth + (if (parser.answer call).1.isRefusal then 1 else 0) ∧
      ∀ᶠ nested in Filter.atTop, ByPlace.answer nested call (parser.walker tokens parser.depth) =
        some ((parser.answer call).1,
          (parser.answer call).2.walker tokens (parser.answer call).2.depth) := by
  cases call with
  | expression =>
    have returns := ByPlace.returns_expression standing
    refine ⟨returns.standing, returns.depth_eq, ?_⟩
    filter_upwards [returns.reads] with nested read
    exact ByPlace.bind_walk read
  | program =>
    have returns := ByPlace.returns_program standing
    refine ⟨returns.standing, returns.depth_eq, ?_⟩
    filter_upwards [returns.reads] with nested read
    exact ByPlace.bind_walk read

/-- Calls in sequence, of a parser at any depth in any tokens.  They all return, and in the end the
parser is deeper by one level for each call that was refused, and by none for a call that succeeded.
The parser by place, which counts its depth up and down, gives the same answers and stands at the
same depth. -/
theorem depth_afterCalls (standing : parser.StandsIn .plain tokens) (calls : List ParserCall) :
    (parser.afterCalls calls).depth =
        parser.depth + (parser.answers calls).countP ParserAnswer.isRefusal ∧
      ∀ᶠ nested in Filter.atTop, ByPlace.answers nested calls (parser.walker tokens parser.depth) =
        some (parser.answers calls,
          (parser.afterCalls calls).walker tokens (parser.afterCalls calls).depth) := by
  induction calls generalizing parser with
  | nil => exact ⟨rfl, .of_forall fun _ => rfl⟩
  | cons call calls ih =>
    obtain ⟨standing, depth, read⟩ := standing.answer call
    obtain ⟨depths, reads⟩ := ih standing
    refine ⟨?_, ?_⟩
    · rw [afterCalls, List.foldl_cons]
      rw [afterCalls] at depths
      rw [depths, depth, answers, List.countP_cons]
      omega
    · filter_upwards [read, reads] with nested read reads
      exact (ByPlace.bind_walk read).trans (ByPlace.bind_walk reads)

/-- Parentheses that nest too deep by one level, and behind them minus signs that take all levels
there are. -/
@[irreducible]
def twoDescents : List Token :=
  List.replicate 128 ⟨.punctuation, "(", 1, 1⟩ ++ List.replicate 255 ⟨.operator, "-", 1, 1⟩ ++
    [⟨.number, "1", 1, 1⟩]

/-- Two refusals, and then a program that is read in spite of them. -/
theorem depth_afterCalls_twoDescents :
    let parser := ofTokens twoDescents
    let calls := [.expression, .expression, .program]
    (parser.answers calls).map ParserAnswer.isRefusal = [true, true, false] ∧
      (parser.afterCalls calls).depth = 2 ∧
      ∀ᶠ nested in Filter.atTop, ∃ walker : ByPlace.Walker, walker.depth = 2 ∧
        ByPlace.answers nested calls (.ofTokens twoDescents) =
          some (parser.answers calls, walker) := by
  intro parser calls
  have standing := standsIn_ofTokens .plain twoDescents
  rw [show (ByPlace.closed twoDescents).map Guise.plain.token = ByPlace.closed twoDescents from
    List.map_id _] at standing
  have refusals : (parser.answers calls).map ParserAnswer.isRefusal = [true, true, false] := by
    decide +kernel
  obtain ⟨depth, reads⟩ := depth_afterCalls standing calls
  have start : parser.depth = 0 := rfl
  have count : (parser.answers calls).countP ParserAnswer.isRefusal = 2 := by
    rw [← Function.id_comp ParserAnswer.isRefusal, ← List.countP_map, refusals]
    rfl
  have two : (parser.afterCalls calls).depth = 2 := by
    rw [depth, start, count]
  have place : ByPlace.Walker.ofTokens twoDescents =
      parser.walker (ByPlace.closed twoDescents).toArray parser.depth := rfl
  refine ⟨refusals, two, ?_⟩
  filter_upwards [reads] with nested read
  rw [place]
  exact ⟨(parser.afterCalls calls).walker _ (parser.afterCalls calls).depth, two, read⟩

/-- A refusal does not give back all levels: behind it, an expression is refused that the parser
would read if it were as deep as before. -/
theorem depth_ne_after_refusal :
    let parser := ofTokens twoDescents
    let (first, after) := parser.answer .expression
    parser.depth = 0 ∧ first.isRefusal = true ∧ after.depth ≠ parser.depth ∧
      (after.answer .expression).1.isRefusal = true ∧
      ({ after with depth := parser.depth }.answer .expression).1.isRefusal = false := by
  decide +kernel

end Parser

end EffectScript.Language
