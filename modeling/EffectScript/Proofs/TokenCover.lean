import EffectScript.Language.Cursor
import Mathlib.Data.List.TakeWhile

/-!
# Tokens cover their source

The characters of a source are the characters that its tokens take, in order, with separators
between them.  A token carries the place of its first character, and a place can be read off the
text before it alone: the line feeds there number the line, and the characters behind the last of
them number the column.
-/

namespace EffectScript.Language

/-! ### Places -/

/-- Number of characters behind the last line feed of a text. -/
def lastLineLength (text : List Char) : Nat :=
  (text.reverse.takeWhile (· != '\n')).length

/-- The place behind a text: one line more than it has line feeds, and one column more than it has
characters behind the last of them. -/
def placeAfter (text : List Char) : Position :=
  ⟨1 + text.count '\n', 1 + lastLineLength text⟩

theorem placeAfter_concat (text : List Char) (c : Char) :
    placeAfter (text ++ [c]) = (placeAfter text).after c := by
  by_cases feed : c = '\n'
  · subst feed
    simp [placeAfter, lastLineLength, Position.after, Nat.add_assoc]
  · simp [placeAfter, lastLineLength, Position.after, feed, Nat.add_comm]

/-- Passing characters one by one leads to the place behind them. -/
theorem advance_placeAfter (before passed : List Char) :
    (placeAfter before).advance passed = placeAfter (before ++ passed) := by
  induction passed generalizing before with
  | nil => simp
  | cons c passed ih =>
    have step : (placeAfter before).advance (c :: passed) =
        (placeAfter (before ++ [c])).advance passed := by
      rw [placeAfter_concat]
      rfl
    rw [step, ih, List.append_assoc]
    rfl

/-! ### Stretches of a source -/

/-- A token with the separators in front of it and the characters it covers. -/
structure Stretch where
  gap : List Char
  taken : List Char
  token : Token

/-- The characters of a stretch. -/
def Stretch.chars (stretch : Stretch) : List Char :=
  stretch.gap ++ stretch.taken

/-- The characters of stretches in a row. -/
def coveredText (stretches : List Stretch) : List Char :=
  stretches.flatMap Stretch.chars

/-- A space, a tab or a carriage return. -/
def Separates (c : Char) : Prop :=
  c = ' ' ∨ c = '\t' ∨ c = '\r'

theorem isGap_iff (c : Char) : isGap c = true ↔ Separates c := by
  simp [isGap, Separates, or_assoc]

/-- What a token at a place takes: from the text in front of the stretch, the next token that is
read is the token of the stretch, and reading leaves what follows the stretch.  The token begins at
the first character that does not separate, and carries the place of that character. -/
structure Stretch.Read (before : List Char) (stretch : Stretch) (behind : List Char) : Prop where
  separates : ∀ c ∈ stretch.gap, Separates c
  begins : ∃ first rest, stretch.taken = first :: rest ∧ ¬Separates first
  kind_ne : stretch.token.kind ≠ .endOfFile
  next_eq : (Cursor.mk (stretch.chars ++ behind) (placeAfter before)).next =
    (stretch.token, ⟨behind, placeAfter (before ++ stretch.chars)⟩)
  line_eq : stretch.token.line = 1 + (before ++ stretch.gap).count '\n'
  column_eq : stretch.token.column = 1 + lastLineLength (before ++ stretch.gap)

/-- Behind a text, a source consists of stretches that are read one after the other, and of
separators behind them. -/
structure Covers (before source : List Char) (stretches : List Stretch) (tail : List Char) :
    Prop where
  whole : source = coveredText stretches ++ tail
  read {front : List Stretch} {stretch : Stretch} {back : List Stretch} :
    stretches = front ++ stretch :: back →
      stretch.Read (before ++ coveredText front) (coveredText back ++ tail)
  separates : ∀ c ∈ tail, Separates c

/-- Nothing but separators remains. -/
theorem covers_nil {before tail : List Char} (separates : ∀ c ∈ tail, Separates c) :
    Covers before tail [] tail where
  whole := rfl
  read cut := by simp at cut
  separates := separates

/-- A stretch in front of stretches. -/
theorem Covers.cons {before source tail : List Char} {stretch : Stretch} {stretches : List Stretch}
    (covers : Covers (before ++ stretch.chars) source stretches tail)
    (read : stretch.Read before source) :
    Covers before (stretch.chars ++ source) (stretch :: stretches) tail where
  whole := by
    rw [covers.whole, coveredText, coveredText, List.flatMap_cons, List.append_assoc]
  read {front other back} cut := by
    cases front with
    | nil =>
      obtain ⟨rfl, rfl⟩ := List.cons.inj cut
      rw [← covers.whole]
      simpa [coveredText] using read
    | cons head front =>
      obtain ⟨rfl, rest⟩ := List.cons.inj cut
      have later := covers.read rest
      rwa [List.append_assoc] at later
  separates := covers.separates

/-! ### Reading one token -/

/-- A lexeme takes the first character. -/
theorem exists_lexeme_taken (first : Char) (rest : List Char) :
    ∃ more, (lexeme first rest).taken = first :: more := by
  have whole := lexeme_taken_append_rest first rest
  cases taken : (lexeme first rest).taken with
  | nil => exact absurd taken (lexeme_taken_ne_nil first rest)
  | cons head more =>
    rw [taken] at whole
    exact ⟨more, by rw [(List.cons.inj whole).1]⟩

/-- How a lexeme is read, by what comes first. -/
inductive LexemeForm (first : Char) (rest : List Char) (found : Lexeme) : Prop
  | feed : found = ⟨.newline, ['\n'], ['\n'], rest⟩ → LexemeForm first rest found
  | string : found = stringLexeme rest → LexemeForm first rest found
  | number : startsNumber first rest = true → found = numberLexeme (first :: rest) →
    LexemeForm first rest found
  | name : found = nameLexeme first rest → LexemeForm first rest found
  | lineComment (more : List Char) : found = lineCommentLexeme more → LexemeForm first rest found
  | blockComment (more : List Char) : found = blockCommentLexeme more → LexemeForm first rest found
  | symbol : found = symbolLexeme first rest → LexemeForm first rest found

theorem lexeme_form (first : Char) (rest : List Char) :
    LexemeForm first rest (lexeme first rest) := by
  unfold lexeme
  split
  · exact .feed rfl
  split
  · exact .string rfl
  split
  · rename_i starts
    exact .number starts rfl
  split
  · exact .name rfl
  split
  · exact .lineComment _ rfl
  · exact .blockComment _ rfl
  · exact .symbol rfl

theorem nameLexeme_kind (first : Char) (rest : List Char) :
    (nameLexeme first rest).kind = .keyword ∨ (nameLexeme first rest).kind = .identifier := by
  rw [nameLexeme]
  split
  · exact .inl rfl
  · exact .inr rfl

theorem symbolLexeme_kind (first : Char) (rest : List Char) :
    (symbolLexeme first rest).kind = .operator ∨ (symbolLexeme first rest).kind = .punctuation := by
  unfold symbolLexeme symbolKind
  repeat' split
  all_goals simp

/-- A lexeme never ends the source. -/
theorem lexeme_kind_ne (first : Char) (rest : List Char) :
    (lexeme first rest).kind ≠ .endOfFile := by
  cases lexeme_form first rest with
  | feed read | string read | number _ read | lineComment _ read | blockComment _ read =>
    rw [read]
    intro kind
    contradiction
  | name read =>
    rw [read]
    rcases nameLexeme_kind first rest with kind | kind <;> simp [kind]
  | symbol read =>
    rw [read]
    rcases symbolLexeme_kind first rest with kind | kind <;> simp [kind]

namespace Cursor

theorem skipGap_eq (source before : List Char) :
    (Cursor.mk source (placeAfter before)).skipGap =
      ⟨source.dropWhile isGap, placeAfter (before ++ source.takeWhile isGap)⟩ := by
  rw [skipGap, pass, advance_placeAfter]

theorem next_of_skipGap {cursor : Cursor} {first : Char} {rest : List Char} {position : Position}
    (skipped : cursor.skipGap = ⟨first :: rest, position⟩) :
    cursor.next = (tokenAt position (lexeme first rest),
      ⟨(lexeme first rest).rest, position.advance (lexeme first rest).taken⟩) := by
  rw [next, skipped]
  rfl

/-- All tokens are read by reading the next one until it ends the source. -/
theorem tokens_eq (cursor : Cursor) :
    cursor.tokens =
      if cursor.next.1.isEndOfFile then [cursor.next.1]
      else cursor.next.1 :: cursor.next.2.tokens := by
  rw [tokens, next]
  dsimp only
  split
  · rename_i finished
    rw [finished]
    rfl
  · rename_i first rest remaining
    have goesOn : (tokenAt cursor.skipGap.position (lexeme first rest)).isEndOfFile = false := by
      rw [Token.isEndOfFile, beq_eq_false_iff_ne]
      exact lexeme_kind_ne first rest
    rw [remaining]
    dsimp only
    rw [goesOn]
    rfl

theorem tokens_of_read {before behind : List Char} {stretch : Stretch}
    (read : stretch.Read before behind) :
    (Cursor.mk (stretch.chars ++ behind) (placeAfter before)).tokens =
      stretch.token :: (Cursor.mk behind (placeAfter (before ++ stretch.chars))).tokens := by
  have goesOn : stretch.token.isEndOfFile = false := by
    rw [Token.isEndOfFile, beq_eq_false_iff_ne]
    exact read.kind_ne
  rw [tokens_eq, read.next_eq, goesOn]
  rfl

theorem next_of_separators {before source : List Char} (separators : source.dropWhile isGap = []) :
    (Cursor.mk source (placeAfter before)).next =
      (endToken (placeAfter (before ++ source)), ⟨[], placeAfter (before ++ source)⟩) := by
  have whole : source.takeWhile isGap = source := by
    simpa [separators] using List.takeWhile_append_dropWhile (p := isGap) (l := source)
  rw [next, skipGap_eq, separators, whole]

/-- The stretch in front of a source that does not only separate. -/
theorem exists_read (before : List Char) {source : List Char} {first : Char} {rest : List Char}
    (remaining : source.dropWhile isGap = first :: rest) :
    ∃ (stretch : Stretch) (behind : List Char),
      source = stretch.chars ++ behind ∧ stretch.Read before behind := by
  let gap := source.takeWhile isGap
  let found := lexeme first rest
  let stretch : Stretch := ⟨gap, found.taken, tokenAt (placeAfter (before ++ gap)) found⟩
  have whole : source = stretch.chars ++ found.rest := by
    rw [Stretch.chars, List.append_assoc, lexeme_taken_append_rest, ← remaining,
      List.takeWhile_append_dropWhile]
  have notGap : isGap first = false := by
    have stops := List.head?_dropWhile_not isGap source
    rwa [remaining] at stops
  have skipped := skipGap_eq source before
  rw [remaining] at skipped
  have read := next_of_skipGap skipped
  rw [advance_placeAfter, List.append_assoc] at read
  obtain ⟨more, taken⟩ := exists_lexeme_taken first rest
  refine ⟨stretch, found.rest, whole, ?_⟩
  refine ⟨fun c member => (isGap_iff c).1 (List.mem_takeWhile_imp member), ⟨first, more, taken, ?_⟩,
    lexeme_kind_ne first rest, ?_, rfl, rfl⟩
  · rw [← isGap_iff, notGap]
    exact Bool.false_ne_true
  · rw [← whole]
    exact read

/-- From any place on, the text that remains is covered by the tokens that are read. -/
theorem exists_covers (before source : List Char) :
    ∃ stretches tail, Covers before source stretches tail ∧
      (Cursor.mk source (placeAfter before)).tokens =
        stretches.map Stretch.token ++ [endToken (placeAfter (before ++ source))] := by
  induction length : source.length using Nat.strongRecOn generalizing before source with
  | ind _ ih =>
    cases remaining : source.dropWhile isGap with
    | nil =>
      refine ⟨[], source, covers_nil fun c member => ?_, ?_⟩
      · rw [List.dropWhile_eq_nil_iff] at remaining
        exact (isGap_iff c).1 (remaining c member)
      · rw [tokens_eq, next_of_separators remaining]
        rfl
    | cons first rest =>
      obtain ⟨stretch, behind, rfl, read⟩ := exists_read before remaining
      obtain ⟨_, _, taken, _⟩ := read.begins
      have shorter : behind.length < (stretch.chars ++ behind).length := by
        simp [Stretch.chars, taken]
        omega
      obtain ⟨stretches, tail, covers, tokens⟩ :=
        ih _ (length ▸ shorter) (before ++ stretch.chars) behind rfl
      refine ⟨stretch :: stretches, tail, covers.cons read, ?_⟩
      rw [tokens_of_read read, tokens, List.append_assoc]
      rfl

end Cursor

/-- Tokens cover their source.  A source is a row of stretches, each of which is separators and at
least one character behind them, with separators at the end.  Each token is that of one stretch:
read from in front of the stretch, it leaves what follows the stretch, and it carries the place of
the first character that it takes, as counted from the text before.  One more token with empty text
marks the end, at the place behind the whole source. -/
theorem tokenize_covers (source : String) :
    ∃ stretches tail, Covers [] source.toList stretches tail ∧
      tokenize source = stretches.map Stretch.token ++
        [⟨.endOfFile, "", 1 + source.toList.count '\n', 1 + lastLineLength source.toList⟩] :=
  Cursor.exists_covers [] source.toList

end EffectScript.Language
