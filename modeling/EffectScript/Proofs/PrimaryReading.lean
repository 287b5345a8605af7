import EffectScript.Proofs.PieceReading
import Mathlib.Data.List.Forall2

/-!
# Reading printed primaries

Single words, names with what follows them, and pieces in parentheses.  Arguments and the statements
of a block are sequences, which are read piece by piece up to the closing parenthesis.
-/

namespace EffectScript.Language

namespace Piece

/-! ### Primaries -/

/-- The piece is read as a primary. -/
def ReadsPrimary (piece : Piece) (node : Node) : Prop :=
  ∀ budget, Parse.Reads Node.unnumbered
    (Parse.primary (grammar budget).statement (grammar budget).expression)
    (piece.charge ≤ budget) piece.words node Token.endsName

theorem ReadsPrimary.reads {piece : Piece} {node : Node} (reads : piece.ReadsPrimary node)
    {word : Word} {words : List Word} (shape : piece.words = word :: words)
    (opens : word.opens = true) (kind : word.kind ≠ .keyword ∧ word.kind ≠ .operator)
    (level : piece.level = .primary) (short : piece.spine = 0) : piece.Reads node := by
  have readsUnary : piece.ReadsUnary node := by
    intro budget parser follow spells ends
    have front := spells
    rw [shape] at front
    obtain ⟨token, later, rest, spelled, _⟩ := front
    have other : parser.current.kind ≠ .operator := by
      rw [Parser.current_of_cons rest, (Token.word_eq_iff.1 spelled).1]
      exact kind.2
    rw [Parse.ensures_unary_of_primary other]
    exact reads budget parser follow spells ends
  exact readsUnary.reads ⟨word, words, shape, opens, fun _ => kind.1⟩ short (by simp [level])

theorem reads_number (text : String) :
    (word .number text).Reads (.number ((Number.readFloat? text.toList).getD 0.0)) := by
  have readsPrimary :
      (word .number text).ReadsPrimary (.number ((Number.readFloat? text.toList).getD 0.0)) := by
    intro budget parser follow spells _
    obtain ⟨token, later, rest, spelled, rfl⟩ := spells
    obtain ⟨kindEq, textEq⟩ := Token.word_eq_iff.1 spelled
    simp only [Parse.primary, Parse.ensures_bind, Parse.ensures_current,
      Parser.current_of_cons rest, kindEq, Parse.ensures_advance, Parse.ensures_pure]
    refine ⟨Nat.zero_le budget, ?_, Parser.rest_advance rest, parser.finish_advance⟩
    rw [Node.unnumbered, Token.value, textEq]
  exact readsPrimary.reads rfl rfl (by simp) rfl rfl

theorem reads_string (text : String) : (word .string text).Reads (.string text) := by
  have readsPrimary : (word .string text).ReadsPrimary (.string text) := by
    intro budget parser follow spells _
    obtain ⟨token, later, rest, spelled, rfl⟩ := spells
    obtain ⟨kindEq, textEq⟩ := Token.word_eq_iff.1 spelled
    simp only [Parse.primary, Parse.ensures_bind, Parse.ensures_current,
      Parser.current_of_cons rest, kindEq, Parse.ensures_advance, Parse.ensures_pure]
    refine ⟨Nat.zero_le budget, ?_, Parser.rest_advance rest, parser.finish_advance⟩
    rw [Node.unnumbered, textEq]
  exact readsPrimary.reads rfl rfl (by simp) rfl rfl

end Piece

namespace Parse

variable {parser : Parser} {statement expression : Parse Node} {good : Node → Parser → Prop}
  {bad : Parser → Prop}

theorem ensures_primary_of_name {token : Token} {later : List Token} {name : String}
    (rest : parser.rest = token :: later) (spelled : token.word = ⟨.identifier, name⟩)
    (unmarked : name.toList.head? ≠ some '@') :
    (primary statement expression).Ensures parser good bad ↔
      (afterName expression name).Ensures parser.advance good bad := by
  obtain ⟨kindEq, textEq⟩ := Token.word_eq_iff.1 spelled
  have plain : token.isSectionMarker = false := by
    simp [Token.isSectionMarker, textEq, unmarked]
  simp only [primary, ensures_bind, ensures_current, Parser.current_of_cons rest, kindEq, plain,
    Bool.false_eq_true, if_false, ensures_advance, textEq]

theorem ensures_afterName_bare {name : String} (ends : parser.current.endsName = true) :
    (afterName expression name).Ensures parser good bad ↔
      (bareName name).Ensures parser good bad := by
  simp only [Token.endsName, Bool.and_eq_true, Bool.not_eq_true'] at ends
  simp only [afterName, ensures_bind, ensures_eat, ends.1, ends.2, Bool.false_eq_true, if_false]

end Parse

namespace Piece

/-- A bare name is read as what it denotes. -/
theorem reads_bareName (name : PlainName) {node : Node}
    (denotes : ∀ (parser : Parser) (good : Node → Parser → Prop),
      (∀ found after, found.unnumbered = node → after.rest = parser.rest →
        after.finish = parser.finish → good found after) →
      (Parse.bareName name.text).Ensures parser good fun _ => False) :
    (word .identifier name.text).Reads node := by
  have readsPrimary : (word .identifier name.text).ReadsPrimary node := by
    intro budget parser follow spells ends
    obtain ⟨token, later, rest, spelled, rfl⟩ := spells
    have restAfter := Parser.rest_advance rest
    rw [Parse.ensures_primary_of_name rest spelled name.unmarked, Parse.ensures_afterName_bare
      (by rwa [Parser.current_eq_headD restAfter parser.finish_advance])]
    refine (denotes parser.advance _ fun found after same restEq finishEq => ?_).imp
      (fun _ _ => id) fun _ => False.elim
    exact ⟨Nat.zero_le budget, same, restEq.trans restAfter,
      finishEq.trans parser.finish_advance⟩
  refine readsPrimary.reads rfl ?_ (by simp) rfl rfl
  simp [Word.opens, name.unmarked]

theorem reads_named (name : VariableName) :
    (word .identifier name.text).Reads (.var (.named name.text 0)) := by
  refine reads_bareName name.toPlainName fun parser good holds => ?_
  simp only [Parse.bareName, name.notConstant, name.notHost, Parse.ensures_bind,
    Parse.ensures_internSymbol, Parse.ensures_pure]
  exact holds _ _ rfl rfl rfl

end Piece

/-! ### Names of host variables -/

theorem sliderIndex?_toDigits :
    ∀ index < sliderCount, sliderIndex? (Nat.toDigits 10 (index + 1)) = some index := by
  decide

namespace HostVar

theorem toList_name_slider (index : Nat) :
    (slider index).name.toList =
      's' :: 'l' :: 'i' :: 'd' :: 'e' :: 'r' :: Nat.toDigits 10 (index + 1) := by
  simp [name, Nat.toString_eq_repr]

section

variable {word : String} {digits : List Char}
  (letters : word.toList = 's' :: 'l' :: 'i' :: 'd' :: 'e' :: 'r' :: digits)

include letters

theorem constant?_of_sliderWord : constant? word = none := by
  rw [constant?.eq_def]
  split
  case h_4 => rfl
  all_goals simp at letters

theorem ofName?_of_sliderWord : ofName? word = (sliderIndex? digits).map slider := by
  rw [ofName?.eq_def]
  split
  case h_9 => simp only [letters]
  -- The other cases are the names that are not sliders.
  all_goals simp at letters

end

theorem constant?_name_slider (index : Nat) : constant? (slider index).name = none :=
  constant?_of_sliderWord (toList_name_slider index)

theorem ofName?_name_slider {index : Nat} (addressed : index < sliderCount) :
    ofName? (slider index).name = some (slider index) := by
  rw [ofName?_of_sliderWord (toList_name_slider index), sliderIndex?_toDigits index addressed,
    Option.map_some]

end HostVar

/-- The name of a host variable denotes it. -/
theorem HostName.denotes (name : HostName) :
    constant? name.var.name = none ∧ HostVar.ofName? name.var.name = some name.var ∧
      name.var.name.toList.head? ≠ some '@' := by
  obtain ⟨var, addressed⟩ := name
  cases var with
  | slider index =>
    refine ⟨HostVar.constant?_name_slider index,
      HostVar.ofName?_name_slider (addressed index rfl), ?_⟩
    rw [HostVar.toList_name_slider]
    simp
  | spl0 | spl1 | srate | tempo | beatPosition | playState | tsNum | tsDenom =>
    exact ⟨rfl, rfl, by simp [HostVar.name]⟩

namespace Piece

theorem reads_host (name : HostName) :
    (word .identifier name.var.name).Reads (.var (.host name.var)) := by
  obtain ⟨notConstant, host, unmarked⟩ := name.denotes
  refine reads_bareName ⟨name.var.name, unmarked⟩ fun parser good holds => ?_
  simp only [Parse.bareName, notConstant, host, Parse.ensures_pure]
  exact holds _ _ rfl rfl rfl

theorem reads_element (name : PlainName) {index : Piece} {node : Node}
    (reads : index.Reads node) : (element name.text index).Reads (.element name.text node) := by
  have readsPrimary : (element name.text index).ReadsPrimary (.element name.text node) := by
    intro budget parser follow spells _
    obtain ⟨token, _, rest, spelled, opening, _, rfl, openingSpelled, spells⟩ := spells
    obtain ⟨_, front, closing, later, rfl, closingSpelled, rfl⟩ := spells_append.1 spells
    have restName := Parser.rest_advance rest
    have call : parser.advance.current.isPunctuation "(" = false :=
      Parser.current_is restName openingSpelled _ _
    have bracket : parser.advance.current.isPunctuation "[" = true :=
      Parser.current_is restName openingSpelled _ _
    rw [Parse.ensures_primary_of_name rest spelled name.unmarked]
    simp only [Parse.afterName, Parse.ensures_bind, Parse.ensures_eat, call, bracket,
      Bool.false_eq_true, if_false, if_true, Parse.ensures_pure]
    have inner := reads.expression budget parser.advance.advance (closing :: later)
      (by rwa [Parser.rest_advance restName]) (ends_of_mark index closingSpelled (by decide))
    refine inner.imp ?_ fun _ scarce => scarce
    rintro found after ⟨enough, same, restAfter, finish⟩
    rw [Parse.ensures_expect restAfter closingSpelled]
    refine ⟨enough, by rw [Node.unnumbered, same], Parser.rest_advance restAfter, ?_⟩
    simp [finish]
  refine readsPrimary.reads rfl ?_ (by simp) rfl rfl
  simp [Word.opens, name.unmarked]

theorem reads_parenthesized {inner : Piece} {node : Node} (reads : inner.Reads node) :
    inner.parenthesized.Reads node := by
  have readsPrimary : inner.parenthesized.ReadsPrimary node := by
    intro budget parser follow spells _
    obtain ⟨opening, _, rest, spelled, spells⟩ := spells
    obtain ⟨_, front, closing, later, rfl, closingSpelled, rfl⟩ := spells_append.1 spells
    obtain ⟨kindEq, textEq⟩ := Token.word_eq_iff.1 spelled
    simp only [Parse.primary, Parse.ensures_bind, Parse.ensures_current,
      Parser.current_of_cons rest, kindEq, textEq, beq_self_eq_true, if_true,
      Parse.ensures_advance, Parse.parenthesized]
    have inside := reads.statement budget parser.advance (closing :: later)
      (by rwa [Parser.rest_advance rest]) (ends_of_mark inner closingSpelled (by decide))
    refine inside.imp ?_ fun _ scarce => scarce
    rintro found after ⟨enough, same, restAfter, finish⟩
    have separator : after.current.isPunctuation ";" = false :=
      Parser.current_is restAfter closingSpelled _ _
    simp only [separator, Bool.false_eq_true, if_false, Parse.ensures_bind]
    rw [Parse.ensures_expect restAfter closingSpelled]
    exact ⟨enough, same, Parser.rest_advance restAfter, by simp [finish]⟩
  exact readsPrimary.reads rfl rfl (by simp) rfl rfl

/-! ### Sequences -/

/-- The first token of a piece does not end a sequence. -/
theorem Opens.front {piece : Piece} (opens : piece.Opens) {rest follow : List Token}
    (spells : Spells piece.words rest follow) :
    ∃ token later, rest = token :: later ∧ token.isSectionMarker = false ∧
      ∀ mark, mark ≠ "(" → token.isPunctuation mark = false := by
  obtain ⟨word, words, shape, opening, _⟩ := opens
  rw [shape] at spells
  obtain ⟨token, later, rfl, spelled, _⟩ := spells
  obtain ⟨kindEq, textEq⟩ := Token.word_eq_iff.1 spelled
  refine ⟨token, later, rfl, ?_, fun mark other => ?_⟩
  · unfold Word.opens at opening
    rw [Token.isSectionMarker, kindEq, textEq]
    cases shape : word.kind <;> simp_all
  · unfold Word.opens at opening
    rw [Token.isPunctuation, Token.is_eq_of_word spelled]
    cases shape : word.kind <;> simp_all [Ne.symm other]

theorem Opens.length_lt {piece : Piece} (opens : piece.Opens) {rest follow : List Token}
    (spells : Spells piece.words rest follow) : follow.length < rest.length := by
  obtain ⟨word, words, shape, _⟩ := opens
  rw [spells.length_eq, shape, List.length_cons]
  omega

/-- In a sequence, a separator or the closing mark comes behind each piece. -/
theorem ends_of_behind (piece : Piece) {mark : String}
    (other : (mark == "(" || mark == "[" || mark == ":") = false) {more : List Piece}
    {rest later : List Token} {closing finish : Token}
    (spells : Spells (behind mark more) rest (closing :: later))
    (closingSpelled : closing.word = ⟨.punctuation, ")"⟩) :
    piece.ends (rest.headD finish) = true := by
  cases more with
  | nil =>
    obtain rfl : rest = closing :: later := spells
    exact ends_of_mark piece closingSpelled (by decide)
  | cons next more =>
    obtain ⟨separator, _, rfl, spelled, _⟩ := spells
    exact ends_of_mark piece spelled other

/-- Behind an argument, the separator is passed over and the other arguments remain. -/
theorem ensures_eat_separator {more : List Piece} {parser : Parser} {later : List Token}
    {closing : Token} (spells : Spells (behind "," more) parser.rest (closing :: later))
    (closingSpelled : closing.word = ⟨.punctuation, ")"⟩) :
    (Parse.eat ",").Ensures parser
      (fun _ after => Spells (listed more) after.rest (closing :: later) ∧
        after.finish = parser.finish)
      (fun _ => False) := by
  rw [Parse.ensures_eat]
  cases more with
  | nil =>
    have rest : parser.rest = closing :: later := spells
    have found : parser.current.isPunctuation "," = false :=
      Parser.current_is rest closingSpelled _ _
    rw [found]
    exact ⟨rest, rfl⟩
  | cons next more =>
    obtain ⟨separator, tokens, rest, spelled, spells⟩ := spells
    have found : parser.current.isPunctuation "," = true :=
      Parser.current_is rest spelled _ _
    rw [found, if_pos rfl, Parser.rest_advance rest]
    exact ⟨spells, parser.finish_advance⟩

theorem reads_arguments {pieces : List Piece} {nodes : List Node}
    (reads : List.Forall₂ Reads pieces nodes) (budget : Nat) {later : List Token}
    {closing : Token} (closingSpelled : closing.word = ⟨.punctuation, ")"⟩)
    (allowance : List Token) (parser : Parser)
    (spells : Spells (listed pieces) parser.rest (closing :: later))
    (enough : parser.rest.length < allowance.length) :
    (Parse.argumentsWithin (grammar budget).expression allowance).Ensures parser
      (fun found after => heaviest expressionCharge pieces ≤ budget ∧
        unnumberedAll found = nodes ∧ after.rest = closing :: later ∧
        after.finish = parser.finish)
      (fun _ => ¬heaviest expressionCharge pieces ≤ budget) := by
  induction reads generalizing parser allowance with
  | nil =>
    have rest : parser.rest = closing :: later := spells
    have closed : parser.current.isPunctuation ")" = true :=
      Parser.current_is rest closingSpelled _ _
    cases allowance with
    | nil => simp at enough
    | cons _ allowance =>
      simp only [Parse.argumentsWithin, Parse.ensures_bind, Parse.ensures_inspect, closed,
        Bool.true_or, if_true, Parse.ensures_pure]
      exact ⟨Nat.zero_le budget, rfl, rest, trivial⟩
  | @cons piece node pieces nodes readsPiece _ ih =>
    cases allowance with
    | nil => simp at enough
    | cons _ allowance =>
      obtain ⟨middle, front, back⟩ := spells_append.1 spells
      obtain ⟨token, tokens, rest, plain, noMark⟩ := readsPiece.opens.front front
      have current := Parser.current_of_cons rest
      have shorter := readsPiece.opens.length_lt front
      have heavier : heaviest expressionCharge (piece :: pieces) =
        max piece.expressionCharge (heaviest expressionCharge pieces) := rfl
      simp only [Parse.argumentsWithin, Parse.ensures_bind, Parse.ensures_inspect,
        Parser.atBoundary, Parser.atEnd, current, noMark ")" (by decide), plain, rest,
        List.isEmpty_cons, Bool.or_self, Bool.false_eq_true, if_false]
      have consumes := (MoveLaw.consumption.grammar budget).expression parser
      have inner := readsPiece.expression budget parser middle front
        (ends_of_behind piece (by decide) back closingSpelled)
      refine (inner.and consumes).imp ?_ fun _ refused => by omega
      rintro found after ⟨⟨enoughPiece, same, restAfter, finish⟩, consumed⟩
      have eating : MoveLaw.consumption.GovernsSilently (Parse.eat ",") := MoveLaw.governs_eat ","
      -- The separator counts for the progress of this round, but not for its argument.
      rw [← restAfter] at back
      refine ((ensures_eat_separator back closingSpelled).and (eating after)).imp ?_
        fun _ refused => refused.1.elim
      rintro _ last ⟨⟨spelled, finishLast⟩, eaten⟩
      have spent := Parser.Consumes.trans consumed eaten
      have fewer := Parser.Consumes.length_le eaten
      rw [restAfter] at fewer
      rw [Parse.ensures_modify, spent.ensureProgress_eq (by omega)]
      refine (ih allowance last spelled (by simp only [List.length_cons] at enough; omega)).imp ?_
        fun _ scarce => by omega
      rintro others final ⟨enoughOthers, sameOthers, restFinal, finishFinal⟩
      refine ⟨by omega, by rw [unnumberedAll, same, sameOthers], restFinal, ?_⟩
      rw [finishFinal, finishLast, finish]

theorem reads_call (name : PlainName) {arguments : List Piece} {nodes : List Node}
    (reads : List.Forall₂ Reads arguments nodes) :
    (call name.text arguments).Reads (.call name.text 0 nodes) := by
  have readsPrimary : (call name.text arguments).ReadsPrimary (.call name.text 0 nodes) := by
    intro budget parser follow spells _
    obtain ⟨token, _, rest, spelled, opening, _, rfl, openingSpelled, spells⟩ := spells
    obtain ⟨_, front, closing, later, rfl, closingSpelled, rfl⟩ := spells_append.1 spells
    have restName := Parser.rest_advance rest
    have restOpening := Parser.rest_advance restName
    have called : parser.advance.current.isPunctuation "(" = true :=
      Parser.current_is restName openingSpelled _ _
    rw [Parse.ensures_primary_of_name rest spelled name.unmarked]
    simp only [Parse.afterName, Parse.ensures_bind, Parse.ensures_eat, called, if_true,
      Parse.arguments, Parse.ensures_inspect, Parse.ensures_internFunction, Parse.ensures_pure]
    have inner := reads_arguments reads budget closingSpelled parser.advance.advance.allowance
      parser.advance.advance (by rwa [restOpening]) (by simp [Parser.allowance])
    refine inner.imp ?_ fun _ scarce => scarce
    rintro found after ⟨enough, same, restAfter, finish⟩
    rw [Parse.ensures_expect restAfter closingSpelled]
    refine ⟨enough, by rw [Node.unnumbered, same], Parser.rest_advance restAfter, ?_⟩
    simp [finish]
  refine readsPrimary.reads rfl ?_ (by simp) rfl rfl
  simp [Word.opens, name.unmarked]

theorem reads_statements {pieces : List Piece} {nodes : List Node}
    (reads : List.Forall₂ Reads pieces nodes) (budget : Nat) {later : List Token}
    {closing : Token} (closingSpelled : closing.word = ⟨.punctuation, ")"⟩)
    (allowance : List Token) (parser : Parser)
    (spells : Spells (behind ";" pieces) parser.rest (closing :: later))
    (enough : parser.rest.length < allowance.length) :
    (Parse.statementsWithin (grammar budget).statement (·.isPunctuation ")") allowance).Ensures
      parser
      (fun found after => heaviest statementCharge pieces ≤ budget ∧
        unnumberedAll found = nodes ∧ after.rest = closing :: later ∧
        after.finish = parser.finish)
      (fun _ => ¬heaviest statementCharge pieces ≤ budget) := by
  induction reads generalizing parser allowance with
  | nil =>
    have rest : parser.rest = closing :: later := spells
    have mark (text : String) : closing.isPunctuation text = (")" == text) := by
      rw [Token.isPunctuation, Token.is_eq_of_word closingSpelled]
      rfl
    have unmoved := Parser.skipSeparators_of_not rest (by rw [mark]; decide)
    cases allowance with
    | nil => simp at enough
    | cons _ allowance =>
      simp only [Parse.statementsWithin, Parse.ensures_bind, Parse.ensures_modify,
        Parse.ensures_inspect, unmoved, Parser.current_of_cons rest, mark, beq_self_eq_true,
        Bool.or_true, if_true, Parse.ensures_pure]
      exact ⟨Nat.zero_le budget, rfl, rest, trivial⟩
  | @cons piece node pieces nodes readsPiece _ ih =>
    cases allowance with
    | nil => simp at enough
    | cons _ allowance =>
      obtain ⟨separator, _, restBefore, separatorSpelled, spells⟩ := spells
      obtain ⟨middle, front, back⟩ := spells_append.1 spells
      obtain ⟨token, tokens, rfl, plain, noMark⟩ := readsPiece.opens.front front
      have isSeparator : separator.isPunctuation ";" = true := by
        rw [Token.isPunctuation, Token.is_eq_of_word separatorSpelled]
        rfl
      have rest := Parser.rest_advance restBefore
      have skipped : parser.skipSeparators = parser.advance := by
        rw [Parser.skipSeparators_of_cons restBefore isSeparator,
          Parser.skipSeparators_of_not rest (by simp [noMark ";" (by decide)])]
      have current := Parser.current_of_cons rest
      have shorter := readsPiece.opens.length_lt front
      have heavier : heaviest statementCharge (piece :: pieces) =
        max piece.statementCharge (heaviest statementCharge pieces) := rfl
      simp only [Parse.statementsWithin, Parse.ensures_bind, Parse.ensures_modify,
        Parse.ensures_inspect, skipped, Parser.atBoundary, Parser.atEnd, current,
        noMark ")" (by decide), plain, rest, List.isEmpty_cons, Bool.or_self,
        Bool.false_eq_true, if_false]
      have consumes := (MoveLaw.consumption.grammar budget).statement parser.advance
      have inner := readsPiece.statement budget parser.advance middle (by rwa [rest])
        (ends_of_behind piece (by decide) back closingSpelled)
      refine (inner.and consumes).imp ?_ fun _ refused => by omega
      rintro found after ⟨⟨enoughPiece, same, restAfter, finish⟩, consumed⟩
      rw [Parser.Consumes.ensureProgress_eq consumed (by rw [restAfter, rest]; exact shorter)]
      rw [← restAfter] at back
      refine (ih allowance after back ?_).imp ?_ fun _ scarce => by omega
      · rw [restBefore, List.length_cons] at enough
        rw [restAfter]
        simp only [List.length_cons] at enough shorter
        omega
      · rintro others final ⟨enoughOthers, sameOthers, restFinal, finishFinal⟩
        refine ⟨by omega, by rw [unnumberedAll, same, sameOthers], restFinal, ?_⟩
        rw [finishFinal, finish, Parser.finish_advance]

theorem reads_block {first second : Piece} {more : List Piece} {firstNode secondNode : Node}
    {nodes : List Node} (readsFirst : first.Reads firstNode)
    (readsSecond : second.Reads secondNode) (readsMore : List.Forall₂ Reads more nodes) :
    (block first (second :: more)).Reads (.block (firstNode :: secondNode :: nodes)) := by
  have readsPrimary : (block first (second :: more)).ReadsPrimary
      (.block (firstNode :: secondNode :: nodes)) := by
    intro budget parser follow spells _
    obtain ⟨opening, _, rest, spelled, spells⟩ := spells
    obtain ⟨_, front, spells⟩ := spells_append.1 spells
    obtain ⟨middle, others, closing, later, rfl, closingSpelled, rfl⟩ := spells_append.1 spells
    obtain ⟨kindEq, textEq⟩ := Token.word_eq_iff.1 spelled
    have heavier : (block first (second :: more)).charge =
      max first.statementCharge (heaviest statementCharge (second :: more)) := rfl
    simp only [Parse.primary, Parse.ensures_bind, Parse.ensures_current,
      Parser.current_of_cons rest, kindEq, textEq, beq_self_eq_true, if_true,
      Parse.ensures_advance, Parse.parenthesized]
    have inner := readsFirst.statement budget parser.advance _ (by rwa [Parser.rest_advance rest])
      (ends_of_behind first (by decide) others closingSpelled)
    refine inner.imp ?_ fun _ scarce => by omega
    rintro found after ⟨enough, same, restAfter, finish⟩
    have separator : after.current.isPunctuation ";" = true := by
      obtain ⟨token, _, shape, tokenSpelled, _⟩ := id others
      rw [Parser.current_of_cons (restAfter.trans shape), Token.isPunctuation,
        Token.is_eq_of_word tokenSpelled]
      rfl
    simp only [separator, if_true, Parse.ensures_bind, Parse.statements, Parse.ensures_inspect]
    have inside := reads_statements (.cons readsSecond readsMore) budget closingSpelled
      after.allowance after (by rwa [restAfter]) (by simp [Parser.allowance])
    refine inside.imp ?_ fun _ scarce => by omega
    rintro moreFound last ⟨enoughMore, sameMore, restLast, finishLast⟩
    rw [Parse.ensures_expect restLast closingSpelled]
    refine ⟨by omega, ?_, Parser.rest_advance restLast, ?_⟩
    · rw [Node.unnumbered, unnumberedAll, same, sameMore]
    · rw [Parser.finish_advance, finishLast, finish, Parser.finish_advance]
  exact readsPrimary.reads rfl rfl (by simp) rfl rfl

end Piece

end EffectScript.Language
