import EffectScript.Proofs.FreshParser
import EffectScript.Proofs.Rendering
import EffectScript.Proofs.TokenCover

/-!
# Scanning numbers

A number token is the longest numeral at its place, however the source goes on behind it, and the
text of every number token is read as a number.  So the value that an unreadable text would count as
is never taken for a token of a source.
-/

namespace EffectScript.Language

/-! ### Where a number begins -/

/-- A digit, or a point and a digit, comes first. -/
def BeginsNumber (text : List Char) : Prop :=
  ∃ digit rest, digit.isDigit = true ∧ (text = digit :: rest ∨ text = '.' :: digit :: rest)

theorem startsNumber_iff (first : Char) (rest : List Char) :
    startsNumber first rest = true ↔ BeginsNumber (first :: rest) := by
  rw [startsNumber, Bool.or_eq_true, Bool.and_eq_true, beq_iff_eq, isDigit_eq]
  constructor
  · rintro (digit | ⟨rfl, behind⟩)
    · exact ⟨first, rest, digit, .inl rfl⟩
    · cases rest with
      | nil => contradiction
      | cons digit rest => exact ⟨digit, rest, (isDigit_eq digit).symm.trans behind, .inr rfl⟩
  · rintro ⟨digit, later, isDigit, same | same⟩
    · obtain ⟨rfl, rfl⟩ := List.cons.inj same
      exact .inl isDigit
    · obtain ⟨rfl, rfl⟩ := List.cons.inj same
      exact .inr ⟨rfl, (isDigit_eq digit).trans isDigit⟩

/-! ### What is split off is a numeral -/

theorem allDigits_takeWhile (text : List Char) : AllDigits (text.takeWhile Number.isDigit) :=
  fun c member => (isDigit_eq c).symm.trans (List.mem_takeWhile_imp member)

/-- A text is digits and then something that does not begin with a digit. -/
theorem exists_digits_append (text : List Char) :
    ∃ digits rest, text = digits ++ rest ∧ AllDigits digits ∧
      ∀ c, rest.head? = some c → Number.isDigit c = false := by
  refine ⟨text.takeWhile Number.isDigit, text.dropWhile Number.isDigit,
    List.takeWhile_append_dropWhile.symm, allDigits_takeWhile text, fun c head => ?_⟩
  have stops := List.head?_dropWhile_not Number.isDigit text
  rwa [head] at stops

theorem splitSignMark_cases (text : List Char) :
    (splitSignMark text).1 = [] ∨ (splitSignMark text).1 = ['+'] ∨
      (splitSignMark text).1 = ['-'] := by
  unfold splitSignMark
  split <;> simp

theorem exponent_splitExponent (text : List Char) : Exponent (splitExponent text).1 := by
  cases text with
  | nil => exact .absent
  | cons mark rest =>
    rw [splitExponent]
    dsimp only
    split
    · rename_i counts
      rw [Bool.and_eq_true, Bool.or_eq_true, beq_iff_eq, beq_iff_eq] at counts
      exact .present counts.1 (splitSignMark_cases rest) (by simpa using counts.2)
        (allDigits_takeWhile _)
    · exact .absent

theorem numeral_splitNumber {source : List Char} (begins : BeginsNumber source) :
    Numeral (splitNumber source).1 := by
  obtain ⟨digits, rest, rfl, all, stops⟩ := exists_digits_append source
  by_cases pointed : rest.head? = some '.'
  · obtain ⟨rest, rfl⟩ := List.head?_eq_some_iff.mp pointed
    rw [splitNumber_pointed all]
    refine ⟨digits ++ '.' :: rest.takeWhile Number.isDigit,
      (splitExponent (rest.dropWhile Number.isDigit)).1, ?_, ?_, exponent_splitExponent _⟩
    · rw [List.append_assoc, List.cons_append]
    · cases digits with
      | nil =>
        -- Without digits in front there is one behind the point.
        obtain ⟨digit, later, isDigit, same | same⟩ := begins
        · obtain ⟨rfl, _⟩ := List.cons.inj same
          contradiction
        · obtain ⟨_, rfl⟩ := List.cons.inj same
          refine .fraction ?_ (allDigits_takeWhile _)
          rw [List.takeWhile_cons_of_pos ((isDigit_eq digit).trans isDigit)]
          exact List.cons_ne_nil _ _
      | cons digit digits =>
        exact .pointed (List.cons_ne_nil _ _) all (allDigits_takeWhile _)
  · have apart : ∀ c, rest.head? = some c → Number.isDigit c = false ∧ c ≠ '.' := by
      intro c head
      refine ⟨stops c head, ?_⟩
      rintro rfl
      exact pointed head
    rw [splitNumber_whole all apart]
    refine ⟨digits, _, rfl, .whole ?_ all, exponent_splitExponent rest⟩
    rintro rfl
    obtain ⟨digit, later, isDigit, rfl | rfl⟩ := begins
    · exact absurd ((isDigit_eq digit).trans isDigit) (by simp [stops digit rfl])
    · exact pointed rfl

/-! ### No longer numeral comes first -/

/-- An exponent is split off, with all the digits that go on behind it. -/
theorem Exponent.isPrefix_splitExponent {exponent : List Char} (isExponent : Exponent exponent)
    (tail : List Char) : exponent <+: (splitExponent (exponent ++ tail)).1 := by
  cases isExponent with
  | absent => exact List.nil_prefix
  | @present mark sign digits marks signs some all =>
    have split := splitSignMark_sign signs some all tail
    have taken : (digits ++ tail).takeWhile Number.isDigit =
        digits ++ tail.takeWhile Number.isDigit :=
      List.takeWhile_append_of_pos all.isDigit
    have counts : ((mark == 'e' || mark == 'E') &&
        !(digits ++ tail.takeWhile Number.isDigit).isEmpty) = true := by
      rcases marks with rfl | rfl <;> simp [some]
    rw [List.cons_append, List.append_assoc, splitExponent, split]
    dsimp only
    rw [taken, if_pos counts]
    exact ⟨tail.takeWhile Number.isDigit, by simp⟩

/-- The mark of an exponent ends a mantissa. -/
theorem head_append_of_mark {mark : Char} (marks : mark = 'e' ∨ mark = 'E')
    (ending tail : List Char) (c : Char) (head : (mark :: ending ++ tail).head? = some c) :
    Number.isDigit c = false ∧ c ≠ '.' := by
  obtain rfl := Option.some.inj head
  rcases marks with rfl | rfl <;> decide

/-- Digits and an exponent are split off, with all that goes on behind them. -/
theorem AllDigits.isPrefix_takeWhile {digits exponent : List Char} (all : AllDigits digits)
    (isExponent : Exponent exponent) (tail : List Char) :
    digits ++ exponent <+:
      (digits ++ (exponent ++ tail)).takeWhile Number.isDigit ++
        (splitExponent ((digits ++ (exponent ++ tail)).dropWhile Number.isDigit)).1 := by
  cases isExponent with
  | absent =>
    rw [List.takeWhile_append_of_pos all.isDigit, List.append_nil, List.append_assoc]
    exact List.prefix_append digits _
  | @present mark sign ending marks signs some allEnding =>
    have isExponent := Exponent.present marks signs some allEnding
    have stops := head_append_of_mark marks (sign ++ ending) tail
    obtain ⟨taken, left⟩ := all.span fun c head => (stops c head).1
    rw [taken, left, List.prefix_append_right_inj]
    exact isExponent.isPrefix_splitExponent tail

/-- A numeral is split off, with all that goes on behind it. -/
theorem Numeral.isPrefix_splitNumber {text : List Char} (numeral : Numeral text)
    (tail : List Char) : text <+: (splitNumber (text ++ tail)).1 := by
  obtain ⟨mantissa, exponent, rfl, isMantissa, isExponent⟩ := numeral
  have pointed {digits fraction : List Char} (all : AllDigits digits)
      (allFraction : AllDigits fraction) :
      digits ++ '.' :: (fraction ++ exponent) <+:
        (splitNumber (digits ++ '.' :: (fraction ++ (exponent ++ tail)))).1 := by
    rw [splitNumber_pointed all, List.prefix_append_right_inj, List.cons_prefix_cons]
    exact ⟨rfl, allFraction.isPrefix_takeWhile isExponent tail⟩
  rw [List.append_assoc]
  cases isMantissa with
  | whole _ all =>
    cases isExponent with
    | absent =>
      rw [List.append_nil, List.nil_append, splitNumber]
      dsimp only
      rw [List.takeWhile_append_of_pos all.isDigit, List.append_assoc]
      exact List.prefix_append mantissa _
    | @present mark sign ending marks signs some allEnding =>
      have isExponent := Exponent.present marks signs some allEnding
      rw [splitNumber_whole all (head_append_of_mark marks (sign ++ ending) tail),
        List.prefix_append_right_inj]
      exact isExponent.isPrefix_splitExponent tail
  | pointed _ all allFraction => simpa using pointed all allFraction
  | fraction _ all => simpa using pointed allDigits_nil all

/-- The longest of the texts with a property that a source begins with. -/
structure IsLongestPrefix (property : List Char → Prop) (source text : List Char) : Prop where
  begins : text <+: source
  holds : property text
  longest {other : List Char} : other <+: source → property other → other <+: text

/-- Where a number begins, the longest numeral is split off. -/
theorem isLongestPrefix_splitNumber {source : List Char} (begins : BeginsNumber source) :
    IsLongestPrefix Numeral source (splitNumber source).1 where
  begins := ⟨_, splitNumber_append source⟩
  holds := numeral_splitNumber begins
  longest := by
    rintro other ⟨tail, rfl⟩ numeral
    exact numeral.isPrefix_splitNumber tail

/-! ### Numerals are read -/

theorem splitSign_of_head {text : List Char}
    (unsigned : ∀ c, text.head? = some c → c ≠ '-' ∧ c ≠ '+') :
    Number.splitSign text = (false, text) := by
  unfold Number.splitSign
  split
  · exact absurd rfl (unsigned '-' rfl).1
  · exact absurd rfl (unsigned '+' rfl).2
  · rfl

theorem readExponent?_of_exponent {exponent : List Char} (isExponent : Exponent exponent) :
    ∃ value, Number.readExponent? exponent = some value := by
  cases isExponent with
  | absent => exact ⟨0, rfl⟩
  | @present mark sign digits marks signs some all =>
    have signed : ∃ negative, Number.splitSign (sign ++ digits) = (negative, digits) := by
      rcases signs with rfl | rfl | rfl
      · refine ⟨false, splitSign_of_head fun c head => ?_⟩
        have digit := all c (List.mem_of_head? head)
        constructor <;> rintro rfl <;> contradiction
      · exact ⟨false, rfl⟩
      · exact ⟨true, rfl⟩
    obtain ⟨negative, split⟩ := signed
    have counts : (mark == 'e' || mark == 'E') = true := by
      rcases marks with rfl | rfl <;> rfl
    have readable : ¬(digits.isEmpty || !digits.all Number.isDigit) = true := by
      simpa [some] using all.isDigit
    rw [Number.readExponent?, if_pos counts, split]
    dsimp only
    rw [if_neg readable]
    exact ⟨_, rfl⟩

theorem readNumeral?_of_numeral {text : List Char} (numeral : Numeral text) :
    ∃ parts, Number.readNumeral? text = some parts := by
  obtain ⟨mantissa, exponent, rfl, isMantissa, isExponent⟩ := numeral
  obtain ⟨value, read⟩ := readExponent?_of_exponent isExponent
  have stops : ∀ c, exponent.head? = some c → Number.isDigit c = false ∧ c ≠ '.' := by
    have ends : Apart [] := fun _ head => nomatch head
    simpa using isExponent.head_append ends
  have pointed {digits fraction : List Char} (all : AllDigits digits)
      (allFraction : AllDigits fraction) (some : digits ≠ [] ∨ fraction ≠ []) :
      ∃ parts, Number.readNumeral? (digits ++ '.' :: (fraction ++ exponent)) = .some parts := by
    have point : ∀ c, ('.' :: (fraction ++ exponent)).head? = .some c →
        Number.isDigit c = false := by
      rintro _ head
      obtain rfl := Option.some.inj head
      decide
    obtain ⟨taken, left⟩ := all.span point
    obtain ⟨takenFraction, leftFraction⟩ := allFraction.span fun c head => (stops c head).1
    have nonempty : ¬(digits.isEmpty && fraction.isEmpty) = true := by
      simpa [Classical.or_iff_not_imp_left] using some
    simp only [Number.readNumeral?, taken, left, takenFraction, leftFraction, if_neg nonempty, read]
    exact ⟨_, rfl⟩
  cases isMantissa with
  | whole some all =>
    obtain ⟨taken, left⟩ := all.span fun c head => (stops c head).1
    rw [Number.readNumeral?, taken, left]
    dsimp only
    split
    · exact absurd rfl (stops '.' rfl).2
    · rw [if_neg (by simpa using some), read]
      exact ⟨_, rfl⟩
  | pointed some all allFraction => simpa using pointed all allFraction (.inl some)
  | fraction some all => exact pointed allDigits_nil all (.inr some)

theorem toLower_of_isDigit {c : Char} (digit : c.isDigit = true) : c.toLower = c := by
  refine dif_neg fun ⟨letter, _⟩ => ?_
  simp only [Char.isDigit, Bool.and_eq_true, decide_eq_true_eq, ge_iff_le,
    UInt32.le_iff_toNat_le] at digit letter
  have bounds : 'A'.val.toNat = 65 ∧ '9'.val.toNat = 57 := by decide
  omega

/-- A text that begins with a digit or a point is no name that begins with a letter. -/
theorem lowerCase_ne {first : Char} (leads : first.isDigit = true ∨ first = '.') (more : List Char)
    {name : String} (named : name.toList.head?.any Char.isAlpha = true) :
    (Number.lowerCase (first :: more) == name) = false := by
  rw [beq_eq_false_iff_ne]
  rintro rfl
  have isAlpha : first.toLower.isAlpha = true := by
    rwa [Number.lowerCase, String.toList_ofList] at named
  rcases leads with digit | rfl
  · rw [toLower_of_isDigit digit] at isAlpha
    have noDigit := isDigit_of_isNameStart ((isNameStart_iff first).mpr (.inl isAlpha))
    rw [isDigit_eq, digit] at noDigit
    contradiction
  · contradiction

/-- Every numeral is read as a number. -/
theorem readFloat?_of_numeral {text : List Char} (numeral : Numeral text) :
    ∃ value, Number.readFloat? text = some value := by
  obtain ⟨first, more, rfl, starts⟩ := numeral.starts
  obtain ⟨parts, read⟩ := readNumeral?_of_numeral numeral
  have leads : first.isDigit = true ∨ first = '.' := by
    obtain ⟨digit, rest, isDigit, same | same⟩ := (startsNumber_iff first _).mp (starts [])
    · exact .inl ((List.cons.inj same).1 ▸ isDigit)
    · exact .inr (List.cons.inj same).1
  have unsigned : Number.splitSign (first :: more) = (false, first :: more) := by
    refine splitSign_of_head fun c head => ?_
    obtain rfl := Option.some.inj head
    rcases leads with digit | rfl
    · constructor <;> rintro rfl <;> contradiction
    · decide
  have short : (Number.lowerCase (first :: more) == "inf") = false :=
    lowerCase_ne leads more (by decide)
  have long : (Number.lowerCase (first :: more) == "infinity") = false :=
    lowerCase_ne leads more (by decide)
  have noNumber : (Number.lowerCase (first :: more) == "nan") = false :=
    lowerCase_ne leads more (by decide)
  rw [Number.readFloat?, unsigned]
  dsimp only
  rw [short, long, noNumber, read]
  exact ⟨_, rfl⟩

/-! ### Number tokens -/

/-- A lexeme is a number exactly where a number begins. -/
theorem lexeme_kind_eq_number_iff (first : Char) (rest : List Char) :
    (lexeme first rest).kind = .number ↔ BeginsNumber (first :: rest) := by
  rw [← startsNumber_iff]
  constructor
  · intro kind
    cases lexeme_form first rest with
    | number starts _ => exact starts
    | name read =>
      rw [read] at kind
      exact absurd (nameLexeme_kind first rest) (by simp [kind])
    | symbol read =>
      rw [read] at kind
      exact absurd (symbolLexeme_kind first rest) (by simp [kind])
    | feed read | string read | lineComment _ read | blockComment _ read =>
      rw [read] at kind
      contradiction
  · intro starts
    rw [(lexeme_of_number starts).2]
    rfl

/-- Where a number begins, the next token is what is split off there. -/
theorem next_of_beginsNumber {cursor : Cursor} (begins : BeginsNumber cursor.skipGap.rest) :
    cursor.next.1.kind = .number ∧
      cursor.next.1.text.toList = (splitNumber cursor.skipGap.rest).1 ∧
      cursor.next.2.rest = (splitNumber cursor.skipGap.rest).2 := by
  cases skipped : cursor.skipGap with
  | mk remaining position =>
    rw [skipped] at begins
    obtain ⟨first, rest, rfl⟩ : ∃ first rest, remaining = first :: rest := by
      obtain ⟨digit, rest, _, same | same⟩ := begins <;> exact ⟨_, _, same⟩
    have starts := (startsNumber_iff first rest).mpr begins
    rw [Cursor.next_of_skipGap skipped, (lexeme_of_number starts).2]
    exact ⟨rfl, String.toList_ofList, rfl⟩

theorem next_kind_eq_number_iff (cursor : Cursor) :
    cursor.next.1.kind = .number ↔ BeginsNumber cursor.skipGap.rest := by
  refine ⟨fun kind => ?_, fun begins => (next_of_beginsNumber begins).1⟩
  cases skipped : cursor.skipGap with
  | mk remaining position =>
    cases remaining with
    | nil =>
      rw [Cursor.next, skipped] at kind
      contradiction
    | cons first rest =>
      rw [Cursor.next_of_skipGap skipped] at kind
      exact (lexeme_kind_eq_number_iff first rest).mp kind

/-- Every token of a source but the last is the next one at some place. -/
theorem exists_next_of_mem {source : String} {token : Token} (member : token ∈ tokenize source)
    (goesOn : token.kind ≠ .endOfFile) : ∃ cursor : Cursor, cursor.next.1 = token := by
  obtain ⟨stretches, tail, covers, tokens⟩ := Cursor.exists_covers [] source.toList
  change token ∈ (Cursor.mk source.toList (placeAfter [])).tokens at member
  rw [tokens, List.mem_append] at member
  rcases member with inside | atEnd
  · obtain ⟨stretch, covering, rfl⟩ := List.mem_map.mp inside
    obtain ⟨front, back, rfl⟩ := List.append_of_mem covering
    exact ⟨_, congrArg Prod.fst (covers.read rfl).next_eq⟩
  · obtain rfl := List.mem_singleton.mp atEnd
    exact absurd rfl goesOn

/-- A number token is a primary, with the value as which its text is read. -/
theorem run_primary_of_number {parser : Parser} (kind : parser.current.kind = .number)
    {value : Float} (read : Number.readFloat? parser.current.text.toList = some value)
    (statement expression : Parse Node) :
    parser.run (Parse.primary statement expression) = (.ok (.number value), parser.advance) := by
  have ensured : (Parse.primary statement expression).Ensures parser
      (fun node after => node = .number value ∧ after = parser.advance) (fun _ => False) := by
    simp only [Parse.primary, Parse.ensures_bind, Parse.ensures_current, kind,
      Parse.ensures_advance, Parse.ensures_pure, and_true]
    rw [Token.value, read, Option.getD_some]
  exact ensured.run_eq

/-- Numbers are scanned as far as they go, and are readable.  At any place of a source the next
token is a number exactly if a number begins there, behind separators, and then it is the longest
numeral that the rest of the source begins with, and reading goes on behind it.  The text of every
number token of a source is read as a number, and the parser takes the token with that value. -/
theorem number_tokens_longest_and_readable :
    (∀ cursor : Cursor,
      (cursor.next.1.kind = .number ↔ BeginsNumber cursor.skipGap.rest) ∧
      (BeginsNumber cursor.skipGap.rest →
        IsLongestPrefix Numeral cursor.skipGap.rest cursor.next.1.text.toList ∧
        cursor.next.1.text.toList ++ cursor.next.2.rest = cursor.skipGap.rest)) ∧
    ∀ source, ∀ token ∈ tokenize source, token.kind = .number →
      ∃ value, Number.readFloat? token.text.toList = some value ∧
        ∀ (parser : Parser) (statement expression : Parse Node), parser.current = token →
          parser.run (Parse.primary statement expression) =
            (.ok (.number value), parser.advance) := by
  refine ⟨fun cursor => ⟨next_kind_eq_number_iff cursor, fun begins => ?_⟩,
    fun source token member kind => ?_⟩
  · obtain ⟨_, text, rest⟩ := next_of_beginsNumber begins
    rw [text, rest]
    exact ⟨isLongestPrefix_splitNumber begins, splitNumber_append _⟩
  · obtain ⟨cursor, rfl⟩ := exists_next_of_mem member (by simp [kind])
    have begins := (next_kind_eq_number_iff cursor).mp kind
    obtain ⟨_, text, _⟩ := next_of_beginsNumber begins
    obtain ⟨value, read⟩ := readFloat?_of_numeral (numeral_splitNumber begins)
    rw [← text] at read
    exact ⟨value, read, fun parser statement expression here =>
      run_primary_of_number (here ▸ kind) (here ▸ read) statement expression⟩

/-- A number with a second exponent behind it. -/
def doubleExponent : String := " 1.e5e5"

theorem number_tokens_longest_and_readable_doubleExponent :
    BeginsNumber (Cursor.ofSource doubleExponent).skipGap.rest ∧
      IsLongestPrefix Numeral ['1', '.', 'e', '5', 'e', '5'] ['1', '.', 'e', '5'] ∧
      ⟨.number, "1.e5", 1, 2⟩ ∈ tokenize doubleExponent ∧
      ∃ value, Number.readFloat? ['1', '.', 'e', '5'] = some value := by
  have begins : BeginsNumber (Cursor.ofSource doubleExponent).skipGap.rest :=
    ⟨'1', ['.', 'e', '5', 'e', '5'], rfl, .inl rfl⟩
  have member : ⟨.number, "1.e5", 1, 2⟩ ∈ tokenize doubleExponent := by decide +kernel
  obtain ⟨scans, reads⟩ := number_tokens_longest_and_readable
  obtain ⟨value, read, _⟩ := reads doubleExponent _ member rfl
  exact ⟨begins, ((scans (Cursor.ofSource doubleExponent)).2 begins).1, member, value, read⟩

end EffectScript.Language
