import EffectScript.Proofs.ParserEnd
import EffectScript.Proofs.PlaceAgreement
import EffectScript.Proofs.Printing

/-!
# Every list of tokens is parsed

Whatever the tokens are, parsing by place comes to an end inside the array, and gives what parsing
the list gives.  A program that is not refused is read up to the first end token, so that what
stands behind has no influence on it, and neither have the places of tokens.
-/

namespace EffectScript.Language

namespace ByPlace

variable {guise : Guise} {tokens : Array Token} {parser : Parser} {depth : Nat}
  {statementStep : Parse Node}

/-! ### Items -/

theorem mirrors_sectionItem (follows : Follows guise tokens depth statement statementStep)
    (consumes : MoveLaw.consumption.Governs Node.mentions statementStep)
    (standing : parser.StandsIn guise tokens) (marker : parser.current.isSectionMarker = true) :
    Mirrors guise tokens depth sectionItem (Parse.sectionItem statementStep) parser := by
  have text : (guise.token parser.current).text = parser.current.text := by
    apply guise.text_eq
    intro ends
    simp [Token.isSectionMarker, ends] at marker
  rw [Parse.sectionItem]
  refine .peek_bind standing ?_
  rw [text]
  refine .advance_bind standing ?_
  refine (follows_statements follows consumes (fun _ => rfl) _ standing.advance).bind
    fun body parser standing _ => ?_
  exact .pure standing _

theorem mirrors_itemsWithin (follows : Follows guise tokens depth statement statementStep)
    (consumes : MoveLaw.consumption.Governs Node.mentions statementStep) (allowance : List Token)
    (parser : Parser) (standing : parser.StandsIn guise tokens)
    (enough : parser.rest.length < allowance.length) :
    Mirrors guise tokens depth items (Parse.itemsWithin statementStep allowance) parser := by
  induction allowance generalizing parser with
  | nil => exact absurd enough (Nat.not_lt_zero _)
  | cons round allowance ih =>
    have shorter := (Parser.Consumes.skipSeparators parser).length_le
    rw [List.length_cons] at enough
    apply Mirrors.call
    simp only [items, Parse.itemsWithin]
    refine .modify_bind (skipSeparators_walker standing depth) ?_
    have standing := standing.skipSeparators
    refine .inspect_bind (.walk_bind (atEnd_walker standing depth) ?_)
    by_cases ended : parser.skipSeparators.atEnd = true
    · simp only [if_pos ended]
      exact .pure standing []
    · simp only [if_neg ended]
      have remaining : parser.skipSeparators.rest ≠ [] := by
        simpa [Parser.atEnd] using ended
      refine .peek_bind standing ?_
      rw [guise.isSectionMarker_eq]
      by_cases marker : parser.skipSeparators.current.isSectionMarker = true
      · simp only [if_pos marker]
        refine (mirrors_sectionItem follows consumes standing marker).bind
          fun item after standing outcome => ?_
        have fewer := Parse.Ensures.of_ok
          (Parse.ensures_sectionItem_length consumes remaining) outcome
        refine (ih _ standing (by omega)).bind fun more after standing _ => ?_
        exact .pure standing (item :: more)
      · simp only [if_neg marker]
        refine .inspect_bind (.get_bind ?_)
        refine (follows _ standing).bind fun item after standing outcome => ?_
        have consumed := Parse.Ensures.of_ok (consumes _) outcome
        have fewer := Parser.Consumes.ensureProgress_length consumed remaining
        refine .modify_bind (.of_forall fun _ => ensureProgress_walker standing depth _) ?_
        refine (ih _ (standing.ensureProgress _) (by omega)).bind
          fun more after standing _ => ?_
        exact .pure standing (item :: more)

/-- Parsing by place does everywhere what parsing a list does. -/
theorem mirrors_program (standing : parser.StandsIn guise tokens) :
    Mirrors guise tokens parser.depth program Parse.program parser := by
  have follows := (follows_grammar guise tokens _ parser.depth rfl).statement
  have consumes := (MoveLaw.consumption.grammar (nestingLimit - parser.depth)).statement
  have parsing : Mirrors guise tokens parser.depth items
      (Parse.itemsWithin (grammar (nestingLimit - parser.depth)).statement parser.allowance)
      parser :=
    mirrors_itemsWithin follows consumes parser.allowance parser standing
      (by simp [Parser.allowance])
  refine parsing.bind fun items after standing _ => ?_
  exact .at_once ⟨⟨standing.ahead, standing.ends, standing.inner⟩, rfl⟩

end ByPlace

/-! ### Fresh parsers -/

/-- The closed tokens are those that a fresh parser is to read, its end token, and what stands
behind. -/
theorem closed_eq (tokens : List Token) : ∃ beyond, ByPlace.closed tokens =
    (Parser.ofTokens tokens).rest ++ (Parser.ofTokens tokens).finish :: beyond := by
  simp only [Parser.ofTokens, ByPlace.closed]
  generalize tokens.filter (fun token => !token.isTrivia) = meaningful
  cases found : meaningful.find? Token.isEndOfFile with
  | some stop =>
    have parts := meaningful.takeWhile_append_dropWhile (p := fun token => !token.isEndOfFile)
    rw [List.find?_eq_head?_dropWhile_not] at found
    obtain ⟨later, shape⟩ := List.head?_eq_some_iff.1 found
    rw [shape] at parts
    rw [Option.getD_some]
    split
    · exact ⟨later, parts.symm⟩
    · refine ⟨later ++ [Parser.syntheticFinish meaningful], ?_⟩
      rw [← List.cons_append, ← List.append_assoc, parts]
  | none =>
    have inner := List.find?_eq_none.1 found
    have whole : meaningful.takeWhile (fun token => !token.isEndOfFile) = meaningful := by
      rw [List.takeWhile_eq_self_iff]
      intro token member
      simp [inner token member]
    have unclosed : ¬meaningful.getLast?.any Token.isEndOfFile = true := by
      intro closed
      obtain ⟨last, shape, ends⟩ := (Option.any_eq_true _ _).1 closed
      exact inner last (List.mem_of_getLast? shape) ends
    rw [if_neg unclosed, whole, Option.getD_none]
    exact ⟨[], rfl⟩

namespace Parser

theorem ofTokens_inner (tokens : List Token) :
    ∀ token ∈ (ofTokens tokens).rest, token.isEndOfFile = false := by
  intro token member
  simpa using List.mem_takeWhile_imp member

/-- A fresh parser stands in any guise of the tokens, closed behind. -/
theorem standsIn_ofTokens (guise : Guise) (tokens : List Token) :
    (ofTokens tokens).StandsIn guise ((ByPlace.closed tokens).map guise.token).toArray where
  ahead := by
    obtain ⟨beyond, closed⟩ := closed_eq tokens
    refine ⟨beyond.map guise.token, ?_⟩
    simp [closed, show (ofTokens tokens).consumed = 0 from rfl]
  ends := ofTokens_finish tokens
  inner := ofTokens_inner tokens

/-- Where one fresh parser stands another one does if they are to read the same in that guise. -/
theorem StandsIn.other {guise : Guise} {array : Array Token} {tokens other : List Token}
    (standing : (ofTokens tokens).StandsIn guise array)
    (same : (ofTokens other).rest.map guise.token = (ofTokens tokens).rest.map guise.token)
    (finish : guise.token (ofTokens other).finish = guise.token (ofTokens tokens).finish) :
    (ofTokens other).StandsIn guise array where
  ahead := by
    obtain ⟨beyond, ahead⟩ := standing.ahead
    exact ⟨beyond, by rw [same, finish]; exact ahead⟩
  ends := ofTokens_finish other
  inner := ofTokens_inner other

end Parser

/-- The tokens as they are. -/
def Guise.plain : Guise where
  token := id
  kind_eq _ := rfl
  text_eq _ _ := rfl

/-- A word at the start of a source; a word that ends a source has no text. -/
def Word.placeless (word : Word) : Token :=
  ⟨word.kind, if word.kind = .endOfFile then "" else word.text, 1, 1⟩

/-- The tokens without their places. -/
def Guise.unplaced : Guise where
  token original := original.word.placeless
  kind_eq _ := rfl
  text_eq _ inner := if_neg inner

theorem Guise.unplaced_of_isEndOfFile {token : Token} (ends : token.isEndOfFile = true) :
    unplaced.token token = ⟨.endOfFile, "", 1, 1⟩ := by
  have kind : token.kind = .endOfFile := by simpa [Token.isEndOfFile] using ends
  simp [unplaced, Token.word, Word.placeless, kind]

/-! ### Outcomes of whole runs -/

namespace ByPlace.Mirrors

variable {α : Type} {guise : Guise} {array : Array Token} {depth : Nat}
  {reading : Nat → Reading α} {step : Parse α} {parser : Parser}

theorem run_ok (mirrors : Mirrors guise array depth reading step parser) {value : α}
    (outcome : (parser.run step).1 = .ok value) :
    ∀ᶠ calls in Filter.atTop, reading calls (parser.walker array depth) =
      some (.ok value, (parser.run step).2.walker array depth) := by
  unfold Parser.run EStateM.run at *
  rw [Mirrors] at mirrors
  cases result : step parser with
  | ok found after =>
    rw [result] at mirrors outcome
    obtain rfl := Except.ok.inj outcome
    exact mirrors.mono fun calls agrees => agrees.2
  | error error after =>
    rw [result] at outcome
    contradiction

theorem run_error (mirrors : Mirrors guise array depth reading step parser)
    {error : NestingError} (outcome : (parser.run step).1 = .error error) :
    ∀ᶠ calls in Filter.atTop, ∃ token : Token, error = ⟨token.line, token.column⟩ ∧
      reading calls (parser.walker array depth) =
        some (.error ⟨(guise.token token).line, (guise.token token).column⟩,
          (parser.run step).2.walker array (depth + 1)) := by
  unfold Parser.run EStateM.run at *
  rw [Mirrors] at mirrors
  cases result : step parser with
  | ok found after =>
    rw [result] at outcome
    contradiction
  | error refusal after =>
    rw [result] at mirrors outcome
    obtain rfl := Except.error.inj outcome
    exact mirrors

end ByPlace.Mirrors

/-! ### Programs and words -/

/-- The program depends on nothing but the words in front of the end. -/
theorem parsed_congr {tokens other : List Token} {program : Program}
    (parses : parsed tokens = .ok program)
    (same : (Parser.ofTokens other).rest.map Token.word =
      (Parser.ofTokens tokens).rest.map Token.word) :
    parsed other = .ok program := by
  have standing := Parser.standsIn_ofTokens .unplaced tokens
  have guised : (Parser.ofTokens other).rest.map Guise.unplaced.token =
      (Parser.ofTokens tokens).rest.map Guise.unplaced.token := by
    have placeless := congrArg (List.map Word.placeless) same
    rwa [List.map_map, List.map_map] at placeless
  have finish : Guise.unplaced.token (Parser.ofTokens other).finish =
      Guise.unplaced.token (Parser.ofTokens tokens).finish := by
    rw [Guise.unplaced_of_isEndOfFile (Parser.ofTokens_finish other),
      Guise.unplaced_of_isEndOfFile (Parser.ofTokens_finish tokens)]
  have read := (ByPlace.mirrors_program standing).run_ok parses
  have mirrors := ByPlace.mirrors_program (standing.other guised finish)
  -- Both parsers are mirrored by one and the same parser by place.
  cases outcome : parsed other with
  | ok found =>
    obtain ⟨calls, read, twin⟩ := (read.and (mirrors.run_ok outcome)).exists
    have twin := read.symm.trans twin
    exact (congrArg Prod.fst (Option.some.inj twin)).symm
  | error error =>
    obtain ⟨calls, read, token, _, refused⟩ := (read.and (mirrors.run_error outcome)).exists
    have twin := read.symm.trans refused
    exact absurd (congrArg Prod.fst (Option.some.inj twin)) nofun

/-- The tokens in front of the first end token are all that is to be read. -/
theorem ofTokens_takeWhile_rest (tokens : List Token) :
    (Parser.ofTokens (tokens.takeWhile fun token => !token.isEndOfFile)).rest =
      (Parser.ofTokens tokens).rest := by
  simp only [Parser.ofTokens]
  induction tokens with
  | nil => rfl
  | cons token rest ih =>
    cases ends : token.isEndOfFile with
    | true =>
      have meaningful : token.isTrivia = false := by
        simp only [Token.isEndOfFile, beq_iff_eq] at ends
        simp [Token.isTrivia, ends]
      simp [ends, meaningful]
    | false =>
      cases trivia : token.isTrivia with
      | true => simpa [ends, trivia] using ih
      | false => simpa [ends, trivia] using ih

/-- Tokens with the same words leave the same words to be read. -/
theorem ofTokens_rest_words {tokens other : List Token}
    (same : other.map Token.word = tokens.map Token.word) :
    (Parser.ofTokens other).rest.map Token.word = (Parser.ofTokens tokens).rest.map Token.word := by
  have words (tokens : List Token) : (Parser.ofTokens tokens).rest.map Token.word =
      ((tokens.map Token.word).filter fun word =>
        !(word.kind == .comment || word.kind == .newline)).takeWhile fun word =>
          !(word.kind == .endOfFile) := by
    rw [List.filter_map, List.takeWhile_map]
    rfl
  rw [words, words, same]

/-! ### Totality -/

/-- The place of a parser that has read everything is that of the first end token. -/
theorem findIdx?_closed (tokens : List Token) :
    (ByPlace.closed tokens).findIdx? Token.isEndOfFile =
      some (Parser.ofTokens tokens).rest.length := by
  obtain ⟨beyond, closed⟩ := closed_eq tokens
  have inner : (Parser.ofTokens tokens).rest.findIdx? Token.isEndOfFile = none :=
    List.findIdx?_eq_none_iff.2 (Parser.ofTokens_inner tokens)
  rw [closed, List.findIdx?_append, inner, List.findIdx?_cons, Parser.ofTokens_finish tokens]
  simp

/-- Parsing by place ends for all tokens, inside the array and with some number of nested calls,
and gives what parsing the list gives.  If that is a program, the parser stands at the first end
token then, and neither what follows there nor the lines and columns of tokens have any influence
on the program. -/
theorem parseTokens_total (tokens : List Token) :
    ∃ last, (∀ᶠ calls in Filter.atTop,
        ByPlace.parseTokens calls tokens = some (parsed tokens, last)) ∧
      ∀ program, parsed tokens = .ok program →
        last.tokens = (ByPlace.closed tokens).toArray ∧
        last.tokens.findIdx? Token.isEndOfFile = some last.place ∧
        ((Parser.ofTokens tokens).run Parse.program).2.rest = [] ∧
        parsed (tokens.takeWhile fun token => !token.isEndOfFile) = .ok program ∧
        ∀ other, other.map Token.word = tokens.map Token.word → parsed other = .ok program := by
  have standing := Parser.standsIn_ofTokens .plain tokens
  rw [show (ByPlace.closed tokens).map Guise.plain.token = ByPlace.closed tokens from
    List.map_id _] at standing
  have mirrors := ByPlace.mirrors_program standing
  cases outcome : parsed tokens with
  | error error =>
    let last := ((Parser.ofTokens tokens).run Parse.program).2
    refine ⟨last.walker (ByPlace.closed tokens).toArray 1, ?_, nofun⟩
    filter_upwards [mirrors.run_error outcome] with calls refused
    obtain ⟨token, rfl, read⟩ := refused
    exact read
  | ok program =>
    refine ⟨_, mirrors.run_ok outcome, ?_⟩
    intro found same
    obtain rfl := Except.ok.inj same
    obtain ⟨spent, consumed⟩ := (ensures_program_spent (Parser.ofTokens tokens)).run_ok outcome
    have place : ((Parser.ofTokens tokens).run Parse.program).2.consumed =
        (Parser.ofTokens tokens).rest.length := by
      have balance := consumed.balance
      have start : (Parser.ofTokens tokens).consumed = 0 := rfl
      simp only [spent.rest_eq, List.length_nil] at balance
      omega
    refine ⟨rfl, ?_, spent.rest_eq, ?_, fun other words => ?_⟩
    · simp only [Parser.walker, place, List.findIdx?_toArray, findIdx?_closed]
    · exact parsed_congr outcome (by rw [ofTokens_takeWhile_rest])
    · exact parsed_congr outcome (ofTokens_rest_words words)

/-- Two sources behind each other, of which only the first is read, wherever its tokens are. -/
theorem parseTokens_total_twoSources :
    let tokens := tokenize "a = b(1" ++ tokenize "c;"
    ∃ program last, (∀ᶠ calls in Filter.atTop,
        ByPlace.parseTokens calls tokens = some (.ok program, last)) ∧
      last.tokens.findIdx? Token.isEndOfFile = some last.place ∧
      parsed (tokens.takeWhile fun token => !token.isEndOfFile) = .ok program ∧
      parsed (tokens.map fun token => { token with line := 7, column := 7 }) = .ok program := by
  intro tokens
  have accepted : (parsed tokens).isOk = true := by
    decide +kernel
  cases outcome : parsed tokens with
  | error error =>
    rw [outcome] at accepted
    contradiction
  | ok program =>
    obtain ⟨last, read, whole⟩ := parseTokens_total tokens
    obtain ⟨_, place, _, cut, moved⟩ := whole program outcome
    rw [outcome] at read
    exact ⟨program, last, read, place, cut, moved _ (by rw [List.map_map]; rfl)⟩

end EffectScript.Language
