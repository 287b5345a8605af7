import EffectScript.Proofs.ParseStep
import Mathlib.Data.List.TakeWhile

/-!
# Fresh parsers

What a fresh parser makes of a list of tokens, and how it follows from what the parsing of items
ensures.
-/

namespace EffectScript.Language

/-- What a fresh parser makes of tokens. -/
def parsed (tokens : List Token) : Except NestingError Program :=
  ((Parser.ofTokens tokens).run Parse.program).1

namespace Parser

theorem ofTokens_rest {tokens : List Token}
    (meaningful : ∀ token ∈ tokens, token.isTrivia = false ∧ token.isEndOfFile = false) :
    (ofTokens tokens).rest = tokens := by
  have kept : tokens.filter (fun token => !token.isTrivia) = tokens := by
    rw [List.filter_eq_self]
    intro token member
    simp [(meaningful token member).1]
  have whole : tokens.takeWhile (fun token => !token.isEndOfFile) = tokens := by
    rw [List.takeWhile_eq_self_iff]
    intro token member
    simp [(meaningful token member).2]
  simp only [ofTokens, kept, whole]

theorem ofTokens_finish (tokens : List Token) : (ofTokens tokens).finish.isEndOfFile = true := by
  simp only [ofTokens]
  cases found : (tokens.filter fun token => !token.isTrivia).find? Token.isEndOfFile with
  | some token => exact List.find?_some found
  | none =>
    simp only [Option.getD_none, syntheticFinish]
    split <;> rfl

end Parser

namespace Parse

variable {α : Type}

/-- A program is parsed by parsing its items. -/
theorem ensures_program (parser : Parser) (good : Program → Parser → Prop) (bad : Parser → Prop) :
    program.Ensures parser good bad ↔
      (itemsWithin (grammar (nestingLimit - parser.depth)).statement parser.allowance).Ensures
        parser (fun items after => good
          ⟨items, after.symbols.release.1, after.functions.release.1⟩
          { after with
            symbols := after.symbols.release.2, functions := after.functions.release.2 }) bad := by
  rw [program, available]
  simp only [ensures_bind, ensures_inspect, ensures_pure]
  exact Iff.rfl

/-- What a step ensures holds of a run that succeeds. -/
theorem Ensures.run_ok {step : Parse α} {parser : Parser} {good : α → Parser → Prop}
    {bad : Parser → Prop} (ensured : step.Ensures parser good bad) {value : α}
    (outcome : (parser.run step).1 = .ok value) : good value (parser.run step).2 := by
  unfold Parser.run EStateM.run at *
  unfold Ensures at ensured
  cases result : step parser with
  | ok found after =>
    rw [result] at ensured outcome
    obtain rfl := Except.ok.inj outcome
    exact ensured
  | error error after =>
    rw [result] at outcome
    contradiction

/-- The run of a step of which the outcome is known. -/
theorem Ensures.run_eq {step : Parse α} {parser after : Parser} {value : α}
    (ensured : step.Ensures parser (fun found last => found = value ∧ last = after)
      (fun _ => False)) :
    parser.run step = (.ok value, after) := by
  unfold Parser.run EStateM.run
  unfold Ensures at ensured
  cases result : step parser with
  | ok found last =>
    rw [result] at ensured
    obtain ⟨rfl, rfl⟩ := ensured
    rfl
  | error error last =>
    rw [result] at ensured
    contradiction

/-- What a step ensures holds of a run that is refused. -/
theorem Ensures.run_error {step : Parse α} {parser : Parser} {good : α → Parser → Prop}
    {bad : Parser → Prop} (ensured : step.Ensures parser good bad) {error : NestingError}
    (outcome : (parser.run step).1 = .error error) : bad (parser.run step).2 := by
  unfold Parser.run EStateM.run at *
  unfold Ensures at ensured
  cases result : step parser with
  | ok found after =>
    rw [result] at outcome
    contradiction
  | error refusal after =>
    rw [result] at ensured
    exact ensured

theorem ensures_itemsWithin_of_finished {statement : Parse Node} {good : List Node → Parser → Prop}
    {bad : Parser → Prop} {parser : Parser} (finished : parser.rest = [])
    (allowance : List Token) :
    (itemsWithin statement allowance).Ensures parser good bad ↔ good [] parser := by
  cases allowance with
  | nil => exact Iff.rfl
  | cons _ allowance =>
    simp only [itemsWithin, ensures_bind, ensures_modify, ensures_inspect,
      Parser.skipSeparators_of_nil finished, Parser.atEnd, finished, List.isEmpty_nil, if_true]
    exact Iff.rfl

theorem ensures_itemsWithin_of_statement {statement : Parse Node}
    {good : List Node → Parser → Prop} {bad : Parser → Prop} {parser : Parser} {token : Token}
    {later : List Token} (remaining : parser.rest = token :: later)
    (noSeparator : token.isPunctuation ";" = false) (noMarker : token.isSectionMarker = false)
    (round : Token) (allowance : List Token) :
    (itemsWithin statement (round :: allowance)).Ensures parser good bad ↔
      statement.Ensures parser
        (fun item after => (itemsWithin statement allowance).Ensures
          (after.ensureProgress parser.consumed)
          (fun items last => good (item :: items) last) bad) bad := by
  have unmoved := Parser.skipSeparators_of_not remaining (by simp [noSeparator])
  have current : parser.current = token := by simp [Parser.current, remaining]
  simp only [itemsWithin, ensures_bind, ensures_modify, ensures_inspect, ensures_current,
    unmoved, Parser.atEnd, remaining, List.isEmpty_cons, Bool.false_eq_true, if_false, current,
    noMarker, ensures_pure]

end Parse

/-- The outcome for tokens, by what parsing their items ensures. -/
theorem parsed_of_ensures {tokens : List Token} {good : List Node → Prop} {bad : Prop}
    (ensured : (Parse.itemsWithin (grammar nestingLimit).statement
      (Parser.ofTokens tokens).allowance).Ensures (Parser.ofTokens tokens)
        (fun items _ => good items) (fun _ => bad)) :
    (∃ program, parsed tokens = .ok program ∧ good program.items) ∨
      (∃ error, parsed tokens = .error error) ∧ bad := by
  have ensuredProgram : Parse.program.Ensures (Parser.ofTokens tokens)
      (fun program _ => good program.items) (fun _ => bad) := by
    rw [Parse.ensures_program]
    exact ensured
  cases outcome : parsed tokens with
  | ok program => exact .inl ⟨program, rfl, ensuredProgram.run_ok outcome⟩
  | error error => exact .inr ⟨⟨error, rfl⟩, ensuredProgram.run_error outcome⟩

end EffectScript.Language
