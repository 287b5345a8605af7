import EffectScript.Proofs.RoundTrip
import EffectScript.Proofs.SectionIndependence
import EffectScript.Script.Compile

/-!
# Sources that spell out a phrase

A section marker and the words of a printed phrase, each with a space behind it, make a source that
compiles to one section with the tree of the phrase, if the nesting budget covers the charge of the
phrase.
-/

namespace EffectScript

namespace Language

/-! ### Words with spaces behind them -/

/-- The word is a lexeme of its own if a space follows. -/
def Word.Lexes (word : Word) : Prop :=
  ∃ first more, word.text.toList = first :: more ∧ isGap first = false ∧
    ∀ tail, lexeme first (more ++ ' ' :: tail) =
      ⟨word.kind, first :: more, first :: more, ' ' :: tail⟩

/-- The text of words, each with a space behind it. -/
def spaced (words : List Word) : List Char :=
  words.flatMap fun word => word.text.toList ++ [' ']

namespace Cursor

theorem tokens_nil (position : Position) :
    (Cursor.mk [] position).tokens = [endToken position] := by
  rw [tokens]
  rfl

theorem tokens_of_cons {first : Char} (notGap : isGap first = false) (rest : List Char)
    (position : Position) :
    (Cursor.mk (first :: rest) position).tokens =
      tokenAt position (lexeme first rest) ::
        ((Cursor.mk (first :: rest) position).pass (lexeme first rest).taken
          (lexeme first rest).rest).tokens := by
  have stays : (Cursor.mk (first :: rest) position).skipGap = ⟨first :: rest, position⟩ := by
    simp [skipGap, pass, notGap]
  rw [tokens]
  split
  · rename_i finished
    rw [stays] at finished
    contradiction
  · rename_i head tail shape
    rw [stays] at shape
    obtain ⟨rfl, rfl⟩ := List.cons.inj shape
    rw [stays]

theorem tokens_of_space (rest : List Char) (position : Position) :
    (Cursor.mk (' ' :: rest) position).tokens = (Cursor.mk rest (position.after ' ')).tokens := by
  have passed : (Cursor.mk (' ' :: rest) position).skipGap =
      (Cursor.mk rest (position.after ' ')).skipGap := rfl
  rw [tokens, tokens]
  simp only [passed]
  rfl

theorem words_tokens_spaced {words : List Word} (lexes : ∀ word ∈ words, word.Lexes)
    (position : Position) :
    (Cursor.mk (spaced words) position).tokens.map Token.word =
      words ++ [⟨.endOfFile, ""⟩] := by
  induction words generalizing position with
  | nil =>
    rw [spaced, List.flatMap_nil, tokens_nil]
    rfl
  | cons word words ih =>
    obtain ⟨first, more, text, notGap, reads⟩ := lexes word List.mem_cons_self
    have source : spaced (word :: words) = first :: (more ++ ' ' :: spaced words) := by
      simp [spaced, text]
    have later := ih fun other member => lexes other (List.mem_cons_of_mem word member)
    rw [source, tokens_of_cons notGap, reads, pass, tokens_of_space, List.map_cons, later,
      List.cons_append]
    congr 1
    simp [tokenAt, Token.word, ← text, String.ofList_toList]

end Cursor

/-- The text of a section: its marker and its words, each with a space behind it. -/
def sectionText (marker : String) (words : List Word) : String :=
  String.ofList (spaced (⟨.identifier, marker⟩ :: words))

theorem words_tokenize_sectionText {marker : String} {words : List Word}
    (lexes : ∀ word ∈ ⟨.identifier, marker⟩ :: words, word.Lexes) :
    (tokenize (sectionText marker words)).map Token.word =
      ⟨.identifier, marker⟩ :: words ++ [⟨.endOfFile, ""⟩] := by
  rw [tokenize, Cursor.ofSource, sectionText, String.toList_ofList]
  exact Cursor.words_tokens_spaced lexes .start

/-! ### A phrase in a section -/

theorem Token.meaningful_of_word {token : Token} (meaningful : token.word.isMeaningful = true) :
    token.isTrivia = false ∧ token.isEndOfFile = false := by
  simp only [Word.isMeaningful, word, Bool.and_eq_true, bne_iff_ne, ne_eq] at meaningful
  simp [isTrivia, isEndOfFile, meaningful]

/-- A fresh parser stands in front of all words of a source. -/
theorem Parser.words_rest_ofTokens {tokens : List Token} {words : List Word}
    (spelled : tokens.map Token.word = words ++ [⟨.endOfFile, ""⟩])
    (meaningful : words.all Word.isMeaningful = true) :
    (ofTokens tokens).rest.map Token.word = words := by
  obtain ⟨front, back, rfl, rfl, ends⟩ := List.map_eq_append_iff.1 spelled
  obtain ⟨last, rfl, finish⟩ := List.map_eq_singleton_iff.1 ends
  have plain : ∀ token ∈ front, token.isTrivia = false ∧ token.isEndOfFile = false := by
    intro token member
    rw [List.all_map, List.all_eq_true] at meaningful
    exact Token.meaningful_of_word (meaningful token member)
  have kind : last.kind = .endOfFile := (Token.word_eq_iff.1 finish).1
  have kept : (front ++ [last]).filter (fun token => !token.isTrivia) = front ++ [last] := by
    rw [List.filter_eq_self]
    intro token member
    rcases List.mem_append.1 member with inside | atEnd
    · simp [(plain token inside).1]
    · obtain rfl := List.mem_singleton.1 atEnd
      simp [Token.isTrivia, kind]
  have stops : (front ++ [last]).takeWhile (fun token => !token.isEndOfFile) = front := by
    rw [List.takeWhile_append_of_pos (fun token member => by simp [(plain token member).2])]
    simp [Token.isEndOfFile, kind]
  simp only [ofTokens, kept, stops]

/-- A section that consists of a printed phrase has its tree as only statement. -/
theorem ensures_part_phrase {wraps : Slot → Phrase → Bool} {phrase : Phrase} {parser : Parser}
    (spells : Spells (phrase.print wraps).words parser.rest [])
    (finish : parser.finish.isEndOfFile = true) :
    Parse.part.Ensures parser
      (fun body after => (phrase.print wraps).statementCharge ≤ nestingLimit ∧
        unnumberedAll body = [phrase.node] ∧ after.rest = [])
      (fun _ => ¬(phrase.print wraps).statementCharge ≤ nestingLimit) := by
  have ends := (phrase.print wraps).ends_of_isEndOfFile finish
  have reads := phrase.reads_print wraps
  obtain ⟨token, later, rest, plain, noMark⟩ := reads.opens.front spells
  have shorter := reads.opens.length_lt spells
  have unmoved := Parser.skipSeparators_of_not rest (by simp [noMark ";" (by decide)])
  have current := Parser.current_of_cons rest
  have consumes := (MoveLaw.consumption.grammar nestingLimit).statement parser
  simp only [Parse.part, Parse.statements, Parse.ensures_bind, Parse.ensures_inspect,
    Parser.allowance, Parse.statementsWithin, Parse.ensures_modify, unmoved, Parser.atBoundary,
    Parser.atEnd, current, plain, rest, List.isEmpty_cons, Bool.or_self, Bool.false_eq_true,
    if_false]
  refine ((reads.statement nestingLimit _ [] spells ends).and consumes).imp ?_
    fun _ refused => refused.1
  rintro found after ⟨⟨enough, same, finished, _⟩, consumed⟩
  rw [Parser.Consumes.ensureProgress_eq consumed (by rwa [finished])]
  simp only [Parser.skipSeparators_of_nil finished, finished, List.isEmpty_nil, Bool.true_or,
    if_true, Parse.ensures_pure]
  exact ⟨enough, by rw [unnumberedAll, unnumberedAll, same], trivial⟩

/-- Words that begin with a marker and go on with a printed phrase parse to one section. -/
theorem parsed_phrase {wraps : Slot → Phrase → Bool} {phrase : Phrase} {name : String}
    {tokens : List Token} (marks : name.toList.head? = some '@')
    (spelled : tokens.map Token.word =
      ⟨.identifier, name⟩ :: (phrase.print wraps).words ++ [⟨.endOfFile, ""⟩])
    (enough : (phrase.print wraps).statementCharge ≤ nestingLimit) :
    ∃ program, parsed tokens = .ok program ∧
      unnumberedAll program.items = [.sectionOf name [phrase.node]] := by
  have meaningful := phrase.isMeaningful_print wraps
  have words := Parser.words_rest_ofTokens spelled meaningful
  obtain ⟨marker, later, rest, word, wordsLater⟩ := List.map_eq_cons_iff.1 words
  obtain ⟨kind, text⟩ := Token.word_eq_iff.1 word
  have opens : marker.isSectionMarker = true := by simp [Token.isSectionMarker, kind, text, marks]
  have spells : Spells (phrase.print wraps).words (Parser.ofTokens tokens).advance.rest [] := by
    rw [Parser.rest_advance rest, ← wordsLater]
    exact spells_map later
  have finish : (Parser.ofTokens tokens).advance.finish.isEndOfFile = true := by
    rw [Parser.finish_advance]
    exact Parser.ofTokens_finish tokens
  have ensured : (Parse.itemsWithin (grammar nestingLimit).statement
      (Parser.ofTokens tokens).allowance).Ensures (Parser.ofTokens tokens)
        (fun items _ => unnumberedAll items = [.sectionOf name [phrase.node]])
        (fun _ => ¬(phrase.print wraps).statementCharge ≤ nestingLimit) := by
    rw [Parser.allowance, Parse.ensures_itemsWithin_of_marker rest opens]
    refine (ensures_part_phrase spells finish).imp ?_ fun _ => id
    rintro body after ⟨_, same, finished⟩
    rw [Parse.ensures_itemsWithin_of_finished finished, unnumberedAll, unnumberedAll,
      Node.unnumbered, same, text]
  rcases parsed_of_ensures ensured with accepted | ⟨_, scarce⟩
  · exact accepted
  · exact absurd enough scarce

end Language

namespace Script

open EffectScript.Language

theorem head?_trim_marker (line : List Char) : (Text.trim ('@' :: line)).head? = some '@' := by
  have front : ('@' :: line).dropWhile Text.isBlank = '@' :: line :=
    List.dropWhile_cons_of_neg (by decide)
  rw [Text.trim, front, Text.dropEndWhile, List.reverse_cons, List.dropWhile_append]
  split
  · rfl
  · simp

/-- A source that begins with a section has no header. -/
theorem readHeader_of_marker {source : String} (marks : source.toList.head? = some '@') :
    (readHeader source).run.value = .ok (.empty, source) := by
  obtain ⟨rest, chars⟩ := List.head?_eq_some_iff.1 marks
  have whole := Text.flatten_lines ('@' :: rest)
  obtain ⟨line, more, lines⟩ : ∃ line more, Text.lines ('@' :: rest) = ('@' :: line) :: more := by
    rw [Text.lines, if_neg (by decide)]
    split
    · exact ⟨_, _, rfl⟩
    · exact ⟨_, _, rfl⟩
  have read : readLines .empty 1 (Text.lines ('@' :: rest)) = pure (.empty, '@' :: rest) := by
    rw [lines] at whole ⊢
    rw [readLines, head?_trim_marker, if_pos (by decide), whole]
  rw [readHeader, chars, read, ← chars]
  exact congrArg (fun body => Except.ok (Info.empty, body)) String.ofList_toList

/-- A section that spells out a phrase compiles, if the budget covers the charge of the phrase, and
has its tree as only statement. -/
theorem compile_phrase {wraps : Slot → Phrase → Bool} {phrase : Phrase} {marker : String}
    (marks : marker.toList.head? = some '@')
    (lexes : ∀ word ∈ ⟨.identifier, marker⟩ :: (phrase.print wraps).words, word.Lexes)
    (enough : (phrase.print wraps).statementCharge ≤ nestingLimit) :
    ∃ script,
      (compile (sectionText marker (phrase.print wraps).words)).value = .ok script ∧
        unnumberedAll script.program.items = [.sectionOf marker [phrase.node]] := by
  obtain ⟨program, parses, same⟩ := parsed_phrase marks (words_tokenize_sectionText lexes) enough
  refine ⟨⟨.empty, program, .ofItems program.items⟩, ?_, same⟩
  have accepted : (parse (sectionText marker (phrase.print wraps).words)).value = .ok program :=
    parses
  have marked : (sectionText marker (phrase.print wraps).words).toList.head? = some '@' := by
    simp [sectionText, spaced, marks]
  rw [compile, Logged.value_bind, readHeader_of_marker marked]
  dsimp only
  rw [Logged.value_bind, accepted]
  rfl

end Script

end EffectScript
