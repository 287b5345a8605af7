import EffectScript.Language.Grammar

/-!
# Reasoning about parsing steps

`Parse.Ensures step parser good bad` says what is known after a step: `good` of the value and the
parser if the step succeeds, `bad` of the parser if it is refused.  The equations below push it
through the moves from which the grammar is built, so that a statement about a whole step is the sum
of statements about its parts.  `Parse.Together` does the same for two steps from two parsers, which
both succeed or are both refused.
-/

namespace EffectScript.Language

namespace Parser

variable {parser : Parser} {token : Token} {rest : List Token}

/-! ### Separators in front -/

theorem skipSeparators_of_nil (remaining : parser.rest = []) : parser.skipSeparators = parser := by
  obtain ⟨_, _, _, _, _, _, _⟩ := parser
  simp_all [skipSeparators]

theorem skipSeparators_of_cons (remaining : parser.rest = token :: rest)
    (separator : token.isPunctuation ";" = true) :
    parser.skipSeparators = parser.advance.skipSeparators := by
  simp [skipSeparators, advance, remaining, separator, Nat.add_assoc, Nat.add_comm 1]

theorem skipSeparators_of_not (remaining : parser.rest = token :: rest)
    (other : ¬token.isPunctuation ";" = true) : parser.skipSeparators = parser := by
  obtain ⟨_, _, _, _, _, _, _⟩ := parser
  simp_all [skipSeparators]

end Parser

namespace Parse

variable {α β : Type}

/-- A step from a parser succeeds with `good` or is refused with `bad`. -/
def Ensures (step : Parse α) (parser : Parser) (good : α → Parser → Prop)
    (bad : Parser → Prop) : Prop :=
  match step parser with
  | .ok value after => good value after
  | .error _ after => bad after

theorem Ensures.imp {step : Parse α} {parser : Parser} {good better : α → Parser → Prop}
    {bad worse : Parser → Prop} (ensured : step.Ensures parser good bad)
    (success : ∀ value after, good value after → better value after)
    (refusal : ∀ after, bad after → worse after) : step.Ensures parser better worse := by
  unfold Ensures at *
  cases outcome : step parser with
  | ok value after =>
    rw [outcome] at ensured
    exact success value after ensured
  | error error after =>
    rw [outcome] at ensured
    exact refusal after ensured

/-- What is known of an outcome. -/
theorem ensures_of_ok {step : Parse α} {parser after : Parser} {value : α}
    (outcome : step parser = .ok value after) :
    step.Ensures parser (fun found last => found = value ∧ last = after) (fun _ => False) := by
  rw [Ensures]
  rw [outcome]
  exact ⟨rfl, rfl⟩

theorem ensures_of_error {step : Parse α} {parser after : Parser} {error : NestingError}
    (outcome : step parser = .error error after) :
    step.Ensures parser (fun _ _ => False) (fun last => last = after) := by
  rw [Ensures]
  rw [outcome]

theorem Ensures.and {step : Parse α} {parser : Parser} {first second : α → Parser → Prop}
    {bad worse : Parser → Prop} (one : step.Ensures parser first bad)
    (other : step.Ensures parser second worse) :
    step.Ensures parser (fun value after => first value after ∧ second value after)
      (fun after => bad after ∧ worse after) := by
  unfold Ensures at *
  cases outcome : step parser with
  | ok value after =>
    rw [outcome] at one other
    exact ⟨one, other⟩
  | error error after =>
    rw [outcome] at one other
    exact ⟨one, other⟩

section Moves

variable (parser : Parser) (bad : Parser → Prop)

@[simp]
theorem ensures_pure (value : α) (good : α → Parser → Prop) :
    Ensures (pure value) parser good bad ↔ good value parser := Iff.rfl

@[simp]
theorem ensures_bind (first : Parse α) (next : α → Parse β) (good : β → Parser → Prop) :
    Ensures (first >>= next) parser good bad ↔
      first.Ensures parser (fun value after => (next value).Ensures after good bad) bad := by
  change (match EStateM.bind first next parser with
    | .ok value after => good value after
    | .error _ after => bad after) ↔ _
  rw [EStateM.bind, Ensures]
  cases first parser with
  | ok value after => rfl
  | error error after => rfl

@[simp]
theorem ensures_map (step : Parse α) (view : α → β) (good : β → Parser → Prop) :
    Ensures (view <$> step) parser good bad ↔
      step.Ensures parser (fun value after => good (view value) after) bad :=
  ensures_bind parser bad step (fun value => pure (view value)) good

@[simp]
theorem ensures_modify (change : Parser → Parser) (good : Unit → Parser → Prop) :
    Ensures (modify change) parser good bad ↔ good () (change parser) := Iff.rfl

@[simp]
theorem ensures_inspect (view : Parser → α) (good : α → Parser → Prop) :
    Ensures (inspect view) parser good bad ↔ good (view parser) parser := Iff.rfl

@[simp]
theorem ensures_current (good : Token → Parser → Prop) :
    Ensures current parser good bad ↔ good parser.current parser := Iff.rfl

@[simp]
theorem ensures_advance (good : Unit → Parser → Prop) :
    Ensures advance parser good bad ↔ good () parser.advance := Iff.rfl

@[simp]
theorem ensures_eat (mark : String) (good : Bool → Parser → Prop) :
    Ensures (eat mark) parser good bad ↔
      if parser.current.isPunctuation mark then good true parser.advance
      else good false parser := by
  rw [eat]
  rw [ensures_bind, ensures_current]
  split <;> simp

@[simp]
theorem ensures_refuse (good : α → Parser → Prop) :
    Ensures refuse parser good bad ↔ bad { parser with depth := parser.depth + 1 } := Iff.rfl

@[simp]
theorem ensures_internSymbol (name : String) (good : Nat → Parser → Prop) :
    Ensures (internSymbol name) parser good bad ↔
      good (parser.symbols.intern name).1
        { parser with symbols := (parser.symbols.intern name).2 } := Iff.rfl

@[simp]
theorem ensures_internFunction (name : String) (good : Nat → Parser → Prop) :
    Ensures (internFunction name) parser good bad ↔
      good (parser.functions.intern name).1
        { parser with functions := (parser.functions.intern name).2 } := Iff.rfl

@[simp]
theorem ensures_ite (condition : Prop) [Decidable condition] (yes no : Parse α)
    (good : α → Parser → Prop) :
    Ensures (if condition then yes else no) parser good bad ↔
      if condition then yes.Ensures parser good bad else no.Ensures parser good bad := by
  split <;> rfl

end Moves

/-! ### Two runs -/

/-- Two steps from two parsers both succeed with `good`, or are both refused. -/
def Together (one : Parse α) (parser : Parser) (other : Parse β) (companion : Parser)
    (good : α → Parser → β → Parser → Prop) : Prop :=
  match one parser, other companion with
  | .ok value after, .ok counterpart beside => good value after counterpart beside
  | .error _ _, .error _ _ => True
  | _, _ => False

namespace Together

variable {γ δ : Type} {one : Parse α} {other : Parse β} {parser companion : Parser}

theorem imp {good better : α → Parser → β → Parser → Prop}
    (together : Together one parser other companion good)
    (success : ∀ value after counterpart beside,
      good value after counterpart beside → better value after counterpart beside) :
    Together one parser other companion better := by
  unfold Together at *
  split at together
  · exact success _ _ _ _ together
  · trivial
  · exact together.elim

theorem bind {between : α → Parser → β → Parser → Prop} {next : α → Parse γ} {follow : β → Parse δ}
    {good : γ → Parser → δ → Parser → Prop}
    (first : Together one parser other companion between)
    (second : ∀ value after counterpart beside, between value after counterpart beside →
      Together (next value) after (follow counterpart) beside good) :
    Together (one >>= next) parser (other >>= follow) companion good := by
  change (match EStateM.bind one next parser, EStateM.bind other follow companion with
    | .ok value after, .ok counterpart beside => good value after counterpart beside
    | .error _ _, .error _ _ => True
    | _, _ => False)
  unfold Together at first
  unfold EStateM.bind
  cases outcome : one parser with
  | ok value after =>
    cases answer : other companion with
    | ok counterpart beside =>
      rw [outcome, answer] at first
      exact second _ _ _ _ first
    | error error beside =>
      rw [outcome, answer] at first
      exact first.elim
  | error error after =>
    cases answer : other companion with
    | ok counterpart beside =>
      rw [outcome, answer] at first
      exact first.elim
    | error error beside => trivial

/-- What either step ensures by itself holds after both. -/
theorem ensuring {good : α → Parser → β → Parser → Prop} {left : α → Parser → Prop}
    {right : β → Parser → Prop} {bad worse : Parser → Prop}
    (together : Together one parser other companion good)
    (ofOne : one.Ensures parser left bad) (ofOther : other.Ensures companion right worse) :
    Together one parser other companion fun value after counterpart beside =>
      good value after counterpart beside ∧ left value after ∧ right counterpart beside := by
  unfold Together Ensures at *
  cases outcome : one parser with
  | ok value after =>
    cases answer : other companion with
    | ok counterpart beside =>
      rw [outcome, answer] at together
      rw [outcome] at ofOne
      rw [answer] at ofOther
      exact ⟨together, ofOne, ofOther⟩
    | error error beside => rwa [outcome, answer] at together
  | error error after =>
    cases answer : other companion with
    | ok counterpart beside => rwa [outcome, answer] at together
    | error error beside => trivial

/-- What the second step ensures, seen from the outcome of the first. -/
theorem ensures {good : α → Parser → β → Parser → Prop}
    (together : Together one parser other companion good) :
    other.Ensures companion
      (fun counterpart beside =>
        ∃ value after, one parser = .ok value after ∧ good value after counterpart beside)
      (fun _ => ∃ error after, one parser = .error error after) := by
  unfold Together at together
  rw [Ensures]
  cases outcome : one parser with
  | ok value after =>
    cases answer : other companion with
    | ok counterpart beside =>
      rw [outcome, answer] at together
      exact ⟨value, after, rfl, together⟩
    | error error beside =>
      rw [outcome, answer] at together
      exact together.elim
  | error error after =>
    cases answer : other companion with
    | ok counterpart beside =>
      rw [outcome, answer] at together
      exact together.elim
    | error refusal beside => exact ⟨error, after, rfl⟩

end Together

section Pairs

variable {γ : Type} (parser companion : Parser) (good : α → Parser → β → Parser → Prop)

@[simp]
theorem together_current_bind (next : Token → Parse α) (follow : Token → Parse β) :
    Together (current >>= next) parser (current >>= follow) companion good ↔
      Together (next parser.current) parser (follow companion.current) companion good := Iff.rfl

@[simp]
theorem together_inspect_bind (view : Parser → γ) (next : γ → Parse α) (follow : γ → Parse β) :
    Together (inspect view >>= next) parser (inspect view >>= follow) companion good ↔
      Together (next (view parser)) parser (follow (view companion)) companion good := Iff.rfl

@[simp]
theorem together_modify_bind (change alter : Parser → Parser) (next : Unit → Parse α)
    (follow : Unit → Parse β) :
    Together (modify change >>= next) parser (modify alter >>= follow) companion good ↔
      Together (next ()) (change parser) (follow ()) (alter companion) good := Iff.rfl

@[simp]
theorem together_advance_bind (next : Unit → Parse α) (follow : Unit → Parse β) :
    Together (advance >>= next) parser (advance >>= follow) companion good ↔
      Together (next ()) parser.advance (follow ()) companion.advance good := Iff.rfl

end Pairs

end Parse

end EffectScript.Language
