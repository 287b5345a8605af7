import EffectScript.Proofs.HeaderLines
import EffectScript.Proofs.RefusalPlace

/-!
# Diagnostics point into the source

Header lines are blanked before a body is read, yet the place that an error names is looked up in
the source.  It is the right place there: the body has the lines of the source, and a line of the
body on which a token begins is that line of the source.
-/

namespace EffectScript

open EffectScript.Language

namespace Language

/-! ### The first character of a token -/

/-- The place of a token. -/
def Token.place (token : Token) : Position :=
  ⟨token.line, token.column⟩

/-- A character stands at a place of a text. -/
def StandsAt (text : List Char) (place : Position) (c : Char) : Prop :=
  ∃ before behind, text = before ++ c :: behind ∧ placeAfter before = place

/-- A token is read off a text, and a character is the first that it takes. -/
def Token.BeginsWith (token : Token) (text : List Char) (first : Char) : Prop :=
  ∃ (before : List Char) (stretch : Stretch) (behind more : List Char),
    text = before ++ (stretch.chars ++ behind) ∧ stretch.Read before behind ∧
      stretch.token = token ∧ stretch.taken = first :: more

/-- The token of a stretch is that of the lexeme behind the separators. -/
theorem Stretch.Read.token_eq {before behind more : List Char} {stretch : Stretch} {first : Char}
    (read : stretch.Read before behind) (taken : stretch.taken = first :: more) :
    stretch.token =
      Cursor.tokenAt (placeAfter (before ++ stretch.gap)) (lexeme first (more ++ behind)) := by
  obtain ⟨_, _, begins, apart⟩ := read.begins
  obtain ⟨rfl, rfl⟩ := List.cons.inj (taken.symm.trans begins)
  have gap : ∀ c ∈ stretch.gap, isGap c = true :=
    fun c member => (isGap_iff c).2 (read.separates c member)
  have notGap : ¬isGap first = true := fun isGap => apart ((isGap_iff first).1 isGap)
  have text : stretch.chars ++ behind = stretch.gap ++ first :: (more ++ behind) := by
    simp [Stretch.chars, taken]
  have skipped : (Cursor.mk (stretch.chars ++ behind) (placeAfter before)).skipGap =
      ⟨first :: (more ++ behind), placeAfter (before ++ stretch.gap)⟩ := by
    rw [Cursor.skipGap_eq, text, List.takeWhile_append_of_pos gap, List.dropWhile_append_of_pos gap,
      List.takeWhile_cons_of_neg notGap, List.dropWhile_cons_of_neg notGap, List.append_nil]
  have next := read.next_eq.symm.trans (Cursor.next_of_skipGap skipped)
  exact (Prod.mk.inj next).1

/-- Only a line break begins with a line feed. -/
theorem Token.BeginsWith.ne_feed {token : Token} {text : List Char} {first : Char}
    (begins : token.BeginsWith text first) (kind : token.kind ≠ .newline) : first ≠ '\n' := by
  obtain ⟨before, stretch, behind, more, _, read, rfl, taken⟩ := begins
  rintro rfl
  rw [read.token_eq taken] at kind
  exact kind rfl

theorem Token.BeginsWith.standsAt {token : Token} {text : List Char} {first : Char}
    (begins : token.BeginsWith text first) : StandsAt text token.place first := by
  obtain ⟨before, stretch, behind, more, rfl, read, rfl, taken⟩ := begins
  refine ⟨before ++ stretch.gap, more ++ behind, by simp [Stretch.chars, taken], ?_⟩
  rw [place, read.line_eq, read.column_eq]
  rfl

/-- Every token of a source but the last takes characters of it. -/
theorem exists_tokenize_eq (source : String) :
    ∃ tokens, tokenize source = tokens ++ [Cursor.endToken (placeAfter source.toList)] ∧
      ∀ token ∈ tokens, token.isEndOfFile = false ∧
        ∃ first, token.BeginsWith source.toList first := by
  obtain ⟨stretches, tail, covers, tokens⟩ := Cursor.exists_covers [] source.toList
  refine ⟨stretches.map Stretch.token, tokens, fun token member => ?_⟩
  obtain ⟨stretch, inside, rfl⟩ := List.mem_map.1 member
  obtain ⟨front, back, rfl⟩ := List.append_of_mem inside
  have read := covers.read rfl
  obtain ⟨first, more, taken, _⟩ := read.begins
  have goesOn : stretch.token.isEndOfFile = false := by
    simpa [Token.isEndOfFile] using read.kind_ne
  refine ⟨goesOn, first, _, stretch, _, more, ?_, read, rfl, taken⟩
  rw [covers.whole]
  simp [coveredText]

end Language

namespace Script

/-! ### From the body to the source -/

/-- A character of the body stands at the same place of the source, and the rest of its line behind
it. -/
theorem standsAt_source {source body : List Char} {place : Position} {c : Char}
    (blanks : Blanks source body) (other : c ≠ '\n') (stands : StandsAt body place c) :
    StandsAt source place c ∧ Text.lineFrom source place = Text.lineFrom body place ∧
      Text.lineFrom body place ≠ [] := by
  obtain ⟨before, behind, cut, rfl⟩ := stands
  obtain ⟨front, back, whole, place, same⟩ := blanks.stays other cut
  refine ⟨⟨front, back, whole, place⟩, ?_, ?_⟩
  · rw [cut, lineFrom_placeAfter, whole, ← place, lineFrom_placeAfter, same]
  · rw [cut, lineFrom_placeAfter, Text.lines_cons other]
    exact List.cons_ne_nil _ _

/-- What stands from a token on, on its line, is the same in the body and in the source. -/
theorem lineFrom_token {source body : String} (blanks : Blanks source.toList body.toList)
    {token : Token} (member : token ∈ tokenize body) (noBreak : token.kind ≠ .newline)
    (noEnd : token.kind ≠ .endOfFile) :
    Text.lineFrom source.toList token.place = Text.lineFrom body.toList token.place ∧
      Text.lineFrom body.toList token.place ≠ [] := by
  obtain ⟨tokens, whole, begins⟩ := exists_tokenize_eq body
  rw [whole, List.mem_append] at member
  rcases member with inside | atEnd
  · obtain ⟨_, c, first⟩ := begins token inside
    exact (standsAt_source blanks (first.ne_feed noBreak) first.standsAt).2
  · obtain rfl := List.mem_singleton.1 atEnd
    exact absurd rfl noEnd

/-! ### Errors -/

/-- A source fails for its header, or its body is refused. -/
theorem compile_error {source : String} {cause : LoadError}
    (failed : (compile source).value = .error cause) :
    (∃ refused, cause = .header refused ∧ (readHeader source).run.value = .error refused) ∨
      ∃ refused info body, cause = .nesting refused ∧
        (readHeader source).run.value = .ok (info, body) ∧
        ((Parser.ofSource body).run Parse.program).1 = .error refused := by
  unfold compile at failed
  rw [Logged.value_bind] at failed
  split at failed
  · rename_i refused header
    exact .inl ⟨refused, (Except.error.inj failed).symm, header⟩
  · rename_i info body header
    rw [Logged.value_bind] at failed
    split at failed
    · rename_i refused parsed
      exact .inr ⟨refused, info, body, (Except.error.inj failed).symm, header, parsed⟩
    · contradiction

/-- What a refusal points at, by the token at which it found the parser: the character of the source
with which the token begins, or the end of the body, which is on the last line of the source. -/
inductive PointsAt (source body : List Char) (place : Position) (token : Token) : Prop
  | first {c : Char} : token.isTrivia = false → token.isEndOfFile = false →
    token.BeginsWith body c → StandsAt source place c → PointsAt source body place token
  | finish : token.isEndOfFile = true → place = placeAfter body →
    place.line = 1 + source.count '\n' → place.column ≤ (placeAfter source).column →
    PointsAt source body place token

theorem pointsAt_of_refused {source body : String} {error : NestingError}
    (blanks : Blanks source.toList body.toList)
    (refused : ((Parser.ofSource body).run Parse.program).1 = .error error) :
    error = ((Parser.ofSource body).run Parse.program).2.refusal ∧
      PointsAt source.toList body.toList ⟨error.line, error.column⟩
        ((Parser.ofSource body).run Parse.program).2.current := by
  obtain ⟨tokens, whole, begins⟩ := exists_tokenize_eq body
  rw [Parser.ofSource, whole] at refused ⊢
  obtain ⟨place, atToken⟩ := Parser.refused_at (fun token member => (begins token member).1) rfl
    refused
  refine ⟨place, ?_⟩
  rw [place]
  rcases atToken with ⟨token, member, meaningful, current⟩ | atEnd
  · obtain ⟨goesOn, c, first⟩ := begins token member
    rw [Parser.refusal, current]
    have kind : token.kind ≠ .newline := by
      rintro newline
      simp [Token.isTrivia, newline] at meaningful
    exact .first meaningful goesOn first
      (standsAt_source blanks (first.ne_feed kind) first.standsAt).1
  · rw [Parser.refusal, atEnd]
    refine .finish rfl rfl ?_ (Nat.add_le_add_left blanks.lastLineLength_le 1)
    exact congrArg (1 + ·) blanks.count_eq

/-- Diagnostics point into the source.  A body has as many line feeds as its source, and from each
of its tokens on, line breaks and the end aside, its line is that of the source.  A refusal names
the place in the source of the first character of the token at which the parser stands, or the end
of the body on the last line of the source.  A header error names, counted from one, the first line
that declares a slider wrongly, and no line up to it ends the header. -/
theorem compile_error_places (source : String) :
    (∀ info body, (readHeader source).run.value = .ok (info, body) →
      body.toList.count '\n' = source.toList.count '\n' ∧
      ∀ token ∈ tokenize body, token.kind ≠ .newline → token.kind ≠ .endOfFile →
        Text.lineFrom source.toList token.place = Text.lineFrom body.toList token.place ∧
          Text.lineFrom body.toList token.place ≠ []) ∧
    (∀ error, (compile source).value = .error (.nesting error) →
      ∃ info body, (readHeader source).run.value = .ok (info, body) ∧
        ((Parser.ofSource body).run Parse.program).1 = .error error ∧
        error = ((Parser.ofSource body).run Parse.program).2.refusal ∧
        PointsAt source.toList body.toList ⟨error.line, error.column⟩
          ((Parser.ofSource body).run Parse.program).2.current) ∧
    (∀ cause, (compile source).value = .error (.header cause) →
      ∃ index, cause.line = 1 + index ∧
        FirstRefused 1 (Text.lines source.toList) index cause) := by
  refine ⟨fun info body header => ?_, fun error failed => ?_, fun cause failed => ?_⟩
  · have blanks := blanks_of_readHeader header
    exact ⟨blanks.count_eq, fun token => lineFrom_token blanks⟩
  · rcases compile_error failed with ⟨_, other, _⟩ | ⟨_, info, body, same, header, refused⟩
    · contradiction
    · obtain rfl := LoadError.nesting.inj same
      exact ⟨info, body, header, refused,
        pointsAt_of_refused (blanks_of_readHeader header) refused⟩
  · rcases compile_error failed with ⟨_, same, refused⟩ | ⟨_, _, _, other, _⟩
    · obtain rfl := LoadError.header.inj same
      obtain ⟨index, first⟩ := firstRefused_of_readHeader refused
      obtain ⟨line, _, _, _, _, _, wrong⟩ := first.refused
      exact ⟨index, Slider.ofLine_error wrong, first⟩
    · contradiction

/-- Why a source does not compile. -/
def failure? (source : String) : Option LoadError :=
  match (compile source).value with
  | .error cause => some cause
  | .ok _ => none

theorem compile_of_failure? {source : String} {cause : LoadError}
    (failed : failure? source = some cause) : (compile source).value = .error cause := by
  unfold failure? at failed
  split at failed
  · rename_i outcome
    rw [outcome, Option.some.inj failed]
  · contradiction

/-- A header line that ends in a carriage return, and a line that opens too many parentheses. -/
def deepSource : String :=
  String.ofList ("desc:deep\r\n  ".toList ++ List.replicate 130 '(')

/-- A slider that is declared twice, the second time wrongly. -/
def misdeclared : String :=
  "slider1:0<0,1>gain\nx = 1;\n slider1:0<0,loud>gain\nslider0:0<0,1>\n@init\n"

theorem compile_error_places_deepSource_misdeclared :
    ((compile deepSource).value = .error (.nesting ⟨2, 131⟩) ∧
      ∃ info body, (readHeader deepSource).run.value = .ok (info, body) ∧
        ((Parser.ofSource body).run Parse.program).1 = .error ⟨2, 131⟩ ∧
        ⟨2, 131⟩ = ((Parser.ofSource body).run Parse.program).2.refusal ∧
        PointsAt deepSource.toList body.toList ⟨2, 131⟩
          ((Parser.ofSource body).run Parse.program).2.current) ∧
    (compile misdeclared).value = .error (.header (.invalidNumber 3 .greatest "loud")) ∧
      ∃ index, 3 = 1 + index ∧ FirstRefused 1 (Text.lines misdeclared.toList) index
        (.invalidNumber 3 .greatest "loud") := by
  have deep : (compile deepSource).value = .error (.nesting ⟨2, 131⟩) :=
    compile_of_failure? (by decide +kernel)
  have wrong : (compile misdeclared).value = .error (.header (.invalidNumber 3 .greatest "loud")) :=
    compile_of_failure? (by decide +kernel)
  exact ⟨⟨deep, (compile_error_places deepSource).2.1 _ deep⟩, wrong,
    (compile_error_places misdeclared).2.2 _ wrong⟩

end Script

end EffectScript
