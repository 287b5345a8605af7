import EffectScript.Proofs.PhraseSource

/-!
# Writing tokens down

Every token can be written down so that it is read back: strings in quotes with quotes and
backslashes escaped, comments between their marks, everything else as its text.  `Word.IsWritten`
says which texts a token of each kind can have, without reference to how a source is read, and
`tokenize_render` that reading the written words, with single spaces between them, gives the words
again.
-/

namespace EffectScript.Language

/-! ### Characters -/

theorem isDigit_eq (c : Char) : Number.isDigit c = c.isDigit := by
  simp [Number.isDigit, Char.isDigit, Char.le_def]

theorem isLetter_eq (c : Char) : isLetter c = c.isAlpha := by
  have alpha : c.isAlpha = (decide ('A'.val ≤ c.val ∧ c.val ≤ 'Z'.val) ||
      (decide ('a'.val ≤ c.val) && decide (c.val ≤ 'z'.val))) := rfl
  simp [alpha, isLetter, Char.le_def, Bool.or_comm]

theorem isNameStart_iff (c : Char) :
    isNameStart c = true ↔ c.isAlpha = true ∨ c = '_' ∨ c = '@' ∨ c = '$' := by
  simp [isNameStart, isLetter_eq, or_assoc]

theorem isNamePart_iff (c : Char) :
    isNamePart c = true ↔ c.isAlphanum = true ∨ c = '_' ∨ c = '@' := by
  simp [isNamePart, isLetter_eq, isDigit_eq, Char.isAlphanum, or_assoc]

/-- A run of characters in front of a rest whose first character is none of them. -/
theorem span_append {p : Char → Bool} {run rest : List Char} (all : ∀ c ∈ run, p c = true)
    (stops : ∀ c, rest.head? = some c → p c = false) :
    (run ++ rest).takeWhile p = run ∧ (run ++ rest).dropWhile p = rest := by
  rw [List.takeWhile_append_of_pos all, List.dropWhile_append_of_pos all]
  cases rest with
  | nil => simp
  | cons c rest =>
    have stop := stops c rfl
    simp [stop]

/-- The end of the source, or a space. -/
def Apart (tail : List Char) : Prop :=
  ∀ c, tail.head? = some c → c = ' '

theorem Apart.head_ne {tail : List Char} (apart : Apart tail) {p : Char → Bool}
    (space : p ' ' = false) (c : Char) (head : tail.head? = some c) : p c = false := by
  rw [apart c head, space]

/-! ### Numerals -/

/-- Decimal digits only. -/
def AllDigits (text : List Char) : Prop :=
  ∀ c ∈ text, c.isDigit = true

/-- Digits, possibly with a point behind or among them, or a point in front of digits. -/
inductive Mantissa : List Char → Prop
  | whole {digits : List Char} : digits ≠ [] → AllDigits digits → Mantissa digits
  | pointed {digits fraction : List Char} : digits ≠ [] → AllDigits digits → AllDigits fraction →
    Mantissa (digits ++ '.' :: fraction)
  | fraction {digits : List Char} : digits ≠ [] → AllDigits digits → Mantissa ('.' :: digits)

/-- Nothing, or a mark, possibly a sign, and digits. -/
inductive Exponent : List Char → Prop
  | absent : Exponent []
  | present {mark : Char} {sign digits : List Char} : mark = 'e' ∨ mark = 'E' →
    sign = [] ∨ sign = ['+'] ∨ sign = ['-'] → digits ≠ [] → AllDigits digits →
    Exponent (mark :: (sign ++ digits))

/-- A mantissa and an exponent. -/
def Numeral (text : List Char) : Prop :=
  ∃ mantissa exponent, text = mantissa ++ exponent ∧ Mantissa mantissa ∧ Exponent exponent

theorem AllDigits.isDigit {digits : List Char} (all : AllDigits digits) :
    ∀ c ∈ digits, Number.isDigit c = true :=
  fun c member => (isDigit_eq c).trans (all c member)

/-- Digits in front of something else are taken as a whole. -/
theorem AllDigits.span {digits rest : List Char} (all : AllDigits digits)
    (stops : ∀ c, rest.head? = some c → Number.isDigit c = false) :
    (digits ++ rest).takeWhile Number.isDigit = digits ∧
      (digits ++ rest).dropWhile Number.isDigit = rest :=
  span_append all.isDigit stops

theorem splitSignMark_sign {sign digits : List Char}
    (signs : sign = [] ∨ sign = ['+'] ∨ sign = ['-']) (some : digits ≠ [])
    (all : AllDigits digits) (tail : List Char) :
    splitSignMark (sign ++ (digits ++ tail)) = (sign, digits ++ tail) := by
  obtain ⟨digit, more, rfl⟩ := List.exists_cons_of_ne_nil some
  have isDigit := all digit List.mem_cons_self
  rcases signs with rfl | rfl | rfl
  · unfold splitSignMark
    split
    · simp_all
    · simp_all
    · rfl
  · rfl
  · rfl

theorem splitExponent_append_apart {exponent tail : List Char} (isExponent : Exponent exponent)
    (apart : Apart tail) : splitExponent (exponent ++ tail) = (exponent, tail) := by
  cases isExponent with
  | absent =>
    cases tail with
    | nil => rfl
    | cons c tail =>
      obtain rfl := apart c rfl
      rfl
  | @present mark sign digits marks signs some all =>
    have split := splitSignMark_sign signs some all tail
    obtain ⟨taken, left⟩ := all.span (apart.head_ne (by decide))
    have nonempty : digits.isEmpty = false := by simpa using some
    simp only [List.cons_append, List.append_assoc, splitExponent, split, taken, left, nonempty]
    rcases marks with rfl | rfl <;> rfl

/-- What follows a mantissa begins neither with a digit nor with a point. -/
theorem Exponent.head_append {exponent tail : List Char} (isExponent : Exponent exponent)
    (apart : Apart tail) (c : Char) (head : (exponent ++ tail).head? = some c) :
    Number.isDigit c = false ∧ c ≠ '.' := by
  cases isExponent with
  | absent =>
    obtain rfl := apart c head
    decide
  | present marks _ _ _ =>
    obtain rfl := Option.some.inj head
    rcases marks with rfl | rfl <;> decide

theorem splitFraction_of_head {rest : List Char} (stops : ∀ c, rest.head? = some c → c ≠ '.') :
    splitFraction rest = ([], rest) := by
  unfold splitFraction
  split
  · exact absurd rfl (stops '.' rfl)
  · rfl

/-- Digits in front of something that goes on with neither a digit nor a point. -/
theorem splitNumber_whole {digits rest : List Char} (all : AllDigits digits)
    (stops : ∀ c, rest.head? = some c → Number.isDigit c = false ∧ c ≠ '.') :
    splitNumber (digits ++ rest) =
      (digits ++ (splitExponent rest).1, (splitExponent rest).2) := by
  obtain ⟨taken, left⟩ := all.span fun c head => (stops c head).1
  have noPoint := splitFraction_of_head fun c head => (stops c head).2
  simp only [splitNumber, taken, left, noPoint, List.nil_append]

/-- A point ends the digits in front of it. -/
theorem splitNumber_pointed {digits : List Char} (all : AllDigits digits) (rest : List Char) :
    splitNumber (digits ++ '.' :: rest) =
      (digits ++ '.' :: (rest.takeWhile Number.isDigit ++
          (splitExponent (rest.dropWhile Number.isDigit)).1),
        (splitExponent (rest.dropWhile Number.isDigit)).2) := by
  have point : ∀ c, ('.' :: rest).head? = some c → Number.isDigit c = false := by
    rintro _ head
    obtain rfl := Option.some.inj head
    decide
  obtain ⟨taken, left⟩ := all.span point
  simp only [splitNumber, taken, left, splitFraction, List.cons_append]

theorem allDigits_nil : AllDigits [] :=
  fun _ member => absurd member List.not_mem_nil

/-- A numeral in front of a space or of the end is taken as a whole. -/
theorem splitNumber_append_apart {text tail : List Char} (numeral : Numeral text)
    (apart : Apart tail) : splitNumber (text ++ tail) = (text, tail) := by
  obtain ⟨mantissa, exponent, rfl, isMantissa, isExponent⟩ := numeral
  have after := splitExponent_append_apart isExponent apart
  have stops := isExponent.head_append apart
  rw [List.append_assoc]
  cases isMantissa with
  | whole _ all => rw [splitNumber_whole all stops, after]
  | @pointed digits fraction _ all allFraction =>
    obtain ⟨taken, left⟩ := allFraction.span fun c head => (stops c head).1
    rw [List.append_assoc, List.cons_append, splitNumber_pointed all, taken, left, after,
      List.append_assoc, List.cons_append]
  | @fraction digits _ all =>
    obtain ⟨taken, left⟩ := all.span fun c head => (stops c head).1
    have split := splitNumber_pointed allDigits_nil (digits ++ (exponent ++ tail))
    rw [taken, left, after] at split
    exact split

/-- A numeral begins a number, whatever follows it. -/
theorem Numeral.starts {text : List Char} (numeral : Numeral text) :
    ∃ first more, text = first :: more ∧ ∀ tail, startsNumber first (more ++ tail) = true := by
  obtain ⟨mantissa, exponent, rfl, isMantissa, _⟩ := numeral
  cases isMantissa with
  | whole some all =>
    obtain ⟨first, more, rfl⟩ := List.exists_cons_of_ne_nil some
    have digit := all.isDigit first List.mem_cons_self
    exact ⟨first, _, rfl, fun tail => by simp [startsNumber, digit]⟩
  | pointed some all _ =>
    obtain ⟨first, more, rfl⟩ := List.exists_cons_of_ne_nil some
    have digit := all.isDigit first List.mem_cons_self
    exact ⟨first, _, rfl, fun tail => by simp [startsNumber, digit]⟩
  | fraction some all =>
    obtain ⟨second, more, rfl⟩ := List.exists_cons_of_ne_nil some
    have digit := all.isDigit second List.mem_cons_self
    exact ⟨'.', _, rfl, fun tail => by simp [startsNumber, digit]⟩

/-! ### Words and how they are written -/

/-- An ASCII letter, an underscore, an at sign or a dollar sign, and then ASCII letters, digits,
underscores and at signs. -/
def IsName (text : List Char) : Prop :=
  ∃ first more, text = first :: more ∧
    (first.isAlpha = true ∨ first = '_' ∨ first = '@' ∨ first = '$') ∧
    ∀ c ∈ more, c.isAlphanum = true ∨ c = '_' ∨ c = '@'

/-- A character that is an operator by itself: it neither separates nor opens or continues a
token of another kind. -/
def IsLoneOperator (c : Char) : Prop :=
  c ∉ [' ', '\t', '\r', '\n', '"', '_', '@', '$'] ∧ c.isAlphanum = false ∧ c ∉ punctuationMarks

namespace Word

/-- A word whose text a token of its kind can have. -/
def IsWritten (word : Word) : Prop :=
  match word.kind with
  | .identifier => IsName word.text.toList ∧ word.text ∉ keywords
  | .keyword => word.text ∈ keywords
  | .number => Numeral word.text.toList
  | .string => True
  | .operator =>
    (∃ pair ∈ doubleOperators, word.text.toList = [pair.1, pair.2]) ∨
      ∃ c, IsLoneOperator c ∧ word.text.toList = [c]
  | .punctuation => ∃ c ∈ punctuationMarks, word.text.toList = [c]
  | .newline => word.text = "\n"
  | .comment => Text.trim word.text.toList = word.text.toList ∧ ¬['*', '/'] <:+: word.text.toList
  | .endOfFile => False

/-- A character inside quotes. -/
def escape (c : Char) : List Char :=
  if c = '\\' ∨ c = '"' then ['\\', c] else [c]

/-- How a word is written. -/
def rendered (word : Word) : List Char :=
  match word.kind with
  | .string => '"' :: (word.text.toList.flatMap escape ++ ['"'])
  | .comment => '/' :: '*' :: ' ' :: (word.text.toList ++ [' ', '*', '/'])
  | _ => word.text.toList

end Word

/-- The text of words, with a space between each two. -/
def render (words : List Word) : String :=
  String.ofList ([' '].intercalate (words.map Word.rendered))

/-! ### Which lexeme begins -/

theorem isDigit_of_isNameStart {c : Char} (starts : isNameStart c = true) :
    Number.isDigit c = false := by
  simp only [isNameStart, isLetter, Bool.or_eq_true, Bool.and_eq_true, decide_eq_true_eq,
    beq_iff_eq, Char.le_def, UInt32.le_iff_toNat_le] at starts
  rcases starts with ((letter | rfl) | rfl) | rfl
  · simp only [Number.isDigit, Bool.and_eq_false_iff, decide_eq_false_iff_not, Char.le_def,
      UInt32.le_iff_toNat_le]
    have bounds : 'a'.val.toNat = 97 ∧ 'A'.val.toNat = 65 ∧ '9'.val.toNat = 57 := by decide
    omega
  · decide
  · decide
  · decide

section Dispatch

variable {first : Char} {rest : List Char}

theorem lexeme_of_number (starts : startsNumber first rest = true) :
    isGap first = false ∧ lexeme first rest = numberLexeme (first :: rest) := by
  have apart (c : Char) (digit : Number.isDigit c = false) (point : (c == '.') = false) :
      first ≠ c := by
    rintro rfl
    simp [startsNumber, digit, point] at starts
  have space := apart ' ' (by decide) (by decide)
  have tab := apart '\t' (by decide) (by decide)
  have back := apart '\r' (by decide) (by decide)
  have feed := apart '\n' (by decide) (by decide)
  have quote := apart '"' (by decide) (by decide)
  exact ⟨by simp [isGap, space, tab, back], by simp [lexeme, feed, quote, starts]⟩

theorem lexeme_of_name (starts : isNameStart first = true) (rest : List Char) :
    isGap first = false ∧ lexeme first rest = nameLexeme first rest := by
  have apart (c : Char) (other : isNameStart c = false) : first ≠ c := by
    rintro rfl
    simp [other] at starts
  have space := apart ' ' (by decide)
  have tab := apart '\t' (by decide)
  have back := apart '\r' (by decide)
  have feed := apart '\n' (by decide)
  have quote := apart '"' (by decide)
  have point := apart '.' (by decide)
  have digit := isDigit_of_isNameStart starts
  exact ⟨by simp [isGap, space, tab, back],
    by simp [lexeme, feed, quote, startsNumber, digit, point, starts]⟩

/-- A character that stands for itself opens no other token. -/
theorem opens_nothing (lone : IsLoneOperator first ∨ first ∈ punctuationMarks) :
    first ∉ [' ', '\t', '\r', '\n', '"'] ∧ Number.isDigit first = false ∧
      isNameStart first = false := by
  rcases lone with ⟨others, neither, _⟩ | mark
  · simp only [List.mem_cons, List.not_mem_nil, or_false, not_or] at others
    obtain ⟨space, tab, back, feed, quote, underscore, atSign, dollar⟩ := others
    rw [Char.isAlphanum, Bool.or_eq_false_iff] at neither
    refine ⟨by simp [space, tab, back, feed, quote], (isDigit_eq first).trans neither.2, ?_⟩
    rw [← Bool.not_eq_true, isNameStart_iff]
    simp [neither.1, underscore, atSign, dollar]
  · simp only [punctuationMarks, List.mem_cons, List.not_mem_nil, or_false] at mark
    rcases mark with rfl | rfl | rfl | rfl | rfl | rfl | rfl | rfl | rfl <;> decide

theorem lexeme_of_symbol (lone : IsLoneOperator first ∨ first ∈ punctuationMarks)
    (apart : Apart rest) :
    isGap first = false ∧ lexeme first rest = ⟨symbolKind first, [first], [first], rest⟩ := by
  obtain ⟨others, digit, name⟩ := opens_nothing lone
  simp only [List.mem_cons, List.not_mem_nil, or_false, not_or] at others
  obtain ⟨space, tab, back, feed, quote⟩ := others
  -- A point would open a number and a slash a comment, but only a space or the end can follow.
  have number : startsNumber first rest = false := by
    cases rest with
    | nil => simp [startsNumber, digit]
    | cons next rest =>
      obtain rfl := apart next rfl
      have space : Number.isDigit ' ' = false := by decide
      simp [startsNumber, digit, space]
  refine ⟨by simp [isGap, space, tab, back], ?_⟩
  simp only [lexeme, beq_iff_eq, feed, quote, number, name, if_false, Bool.false_eq_true]
  cases rest with
  | nil => split <;> simp_all [symbolLexeme]
  | cons next rest =>
    obtain rfl := apart next rfl
    have single : doubleOperators.contains (first, ' ') = false := by simp [doubleOperators]
    split
    · simp_all
    · simp_all
    · simp only [symbolLexeme, single, Bool.false_eq_true, if_false]

end Dispatch

/-! ### Lexemes of written words -/

/-- In front of a space or of the end, a lexeme is read off its characters as a word. -/
def ReadsAs (chars : List Char) (word : Word) : Prop :=
  ∃ first more, chars = first :: more ∧ isGap first = false ∧ ∀ tail, Apart tail →
    lexeme first (more ++ tail) = ⟨word.kind, word.text.toList, first :: more, tail⟩

theorem readsAs_number {text : String} (numeral : Numeral text.toList) :
    ReadsAs text.toList ⟨.number, text⟩ := by
  obtain ⟨first, more, chars, starts⟩ := numeral.starts
  refine ⟨first, more, chars, (lexeme_of_number (starts [])).1, fun tail apart => ?_⟩
  have split := splitNumber_append_apart numeral apart
  rw [chars, List.cons_append] at split
  rw [(lexeme_of_number (starts tail)).2, numberLexeme, split, ← chars]

theorem readsAs_name {text : String} (name : IsName text.toList) {kind : TokenKind}
    (sort : kind = if text ∈ keywords then .keyword else .identifier) :
    ReadsAs text.toList ⟨kind, text⟩ := by
  obtain ⟨first, more, chars, begins, parts⟩ := name
  have starts := (isNameStart_iff first).2 begins
  refine ⟨first, more, chars, (lexeme_of_name starts []).1, fun tail apart => ?_⟩
  obtain ⟨taken, left⟩ := span_append (fun c member => (isNamePart_iff c).2 (parts c member))
    (apart.head_ne (by decide))
  rw [(lexeme_of_name starts (more ++ tail)).2, nameLexeme, taken, left, ← chars,
    String.ofList_toList, sort]
  simp

theorem isName_of_mem_keywords {text : String} (keyword : text ∈ keywords) :
    IsName text.toList := by
  simp only [keywords, List.mem_cons, List.not_mem_nil, or_false] at keyword
  rcases keyword with rfl | rfl | rfl | rfl | rfl
  · exact ⟨'i', ['f'], rfl, by decide, by simp⟩
  · exact ⟨'e', ['l', 's', 'e'], rfl, by decide, by simp⟩
  · exact ⟨'w', ['h', 'i', 'l', 'e'], rfl, by decide, by simp⟩
  · exact ⟨'f', ['u', 'n', 'c', 't', 'i', 'o', 'n'], rfl, by decide, by simp⟩
  · exact ⟨'l', ['o', 'o', 'p'], rfl, by decide, by simp⟩

theorem stringBody_escaped (text tail : List Char) :
    stringBody (text.flatMap Word.escape ++ '"' :: tail) =
      ⟨text, text.flatMap Word.escape ++ ['"'], tail⟩ := by
  induction text with
  | nil => simp [stringBody]
  | cons c text ih =>
    by_cases special : c = '\\' ∨ c = '"'
    · have kept : unescape c = c := by rcases special with rfl | rfl <;> decide
      simp [Word.escape, special, stringBody, ih, LexemeBody.prepend, kept]
    · obtain ⟨noBackslash, noQuote⟩ := not_or.1 special
      simp [Word.escape, noBackslash, noQuote, stringBody, ih, LexemeBody.prepend]

theorem readsAs_string (text : String) :
    ReadsAs (Word.rendered ⟨.string, text⟩) ⟨.string, text⟩ := by
  refine ⟨'"', _, rfl, by decide, fun tail _ => ?_⟩
  have body := stringBody_escaped text.toList tail
  simp [lexeme, stringLexeme, body]

/-- A block comment ends at the first closing mark. -/
theorem blockBody_append {body : List Char} (unclosed : ¬['*', '/'] <:+: body) (tail : List Char) :
    blockBody (body ++ '*' :: '/' :: tail) = ⟨body, body ++ ['*', '/'], tail⟩ := by
  induction body with
  | nil => rfl
  | cons c body ih =>
    have later : ¬['*', '/'] <:+: body := fun inside => unclosed (List.infix_cons inside)
    have goesOn : ∀ more, c = '*' → body ++ '*' :: '/' :: tail = '/' :: more → False := by
      rintro more rfl begins
      cases body with
      | nil => simp at begins
      | cons d body =>
        obtain ⟨rfl, _⟩ := List.cons.inj begins
        exact unclosed ⟨[], body, rfl⟩
    rw [List.cons_append, blockBody.eq_3 _ _ goesOn, ih later]
    rfl

theorem trim_spaced (text : List Char) : Text.trim (' ' :: (text ++ [' '])) = Text.trim text := by
  have blank : Text.isBlank ' ' = true := by decide
  rw [Text.trim, Text.trim, List.dropWhile_cons_of_pos blank, List.dropWhile_append]
  split
  · rename_i nothing
    rw [List.isEmpty_iff.1 nothing]
    rfl
  · rw [Text.dropEndWhile, List.reverse_append, List.reverse_singleton, List.singleton_append,
      List.dropWhile_cons_of_pos blank, Text.dropEndWhile]

theorem readsAs_comment {text : String} (trimmed : Text.trim text.toList = text.toList)
    (unclosed : ¬['*', '/'] <:+: text.toList) :
    ReadsAs (Word.rendered ⟨.comment, text⟩) ⟨.comment, text⟩ := by
  refine ⟨'/', _, rfl, by decide, fun tail _ => ?_⟩
  have inner : ¬['*', '/'] <:+: ' ' :: (text.toList ++ [' ']) := by
    rw [List.infix_cons_iff, List.infix_concat_iff]
    rintro (front | back | inside)
    · simp at front
    · obtain ⟨before, whole⟩ := back
      have last := congrArg List.getLast? whole
      simp at last
    · exact unclosed inside
  have body := blockBody_append inner tail
  have opens (rest : List Char) : lexeme '/' ('*' :: rest) = blockCommentLexeme rest := rfl
  have source : '*' :: ' ' :: (text.toList ++ [' ', '*', '/']) ++ tail =
      '*' :: (' ' :: (text.toList ++ [' ']) ++ '*' :: '/' :: tail) := by simp
  rw [source, opens, blockCommentLexeme, body, trim_spaced, trimmed]
  simp

theorem isGap_of_mem_doubleOperators : ∀ pair ∈ doubleOperators, isGap pair.1 = false := by
  decide

theorem readsAs_pair {text : String} {pair : Char × Char} (double : pair ∈ doubleOperators)
    (chars : text.toList = [pair.1, pair.2]) : ReadsAs text.toList ⟨.operator, text⟩ := by
  refine ⟨pair.1, [pair.2], chars, isGap_of_mem_doubleOperators pair double, fun tail _ => ?_⟩
  dsimp only
  rw [chars]
  simp only [doubleOperators, List.mem_cons, List.not_mem_nil, or_false] at double
  rcases double with rfl | rfl | rfl | rfl | rfl | rfl | rfl | rfl | rfl | rfl <;> rfl

theorem readsAs_symbol {text : String} {c : Char}
    (lone : IsLoneOperator c ∨ c ∈ punctuationMarks) (chars : text.toList = [c]) :
    ReadsAs text.toList ⟨symbolKind c, text⟩ := by
  have ends : Apart [] := fun _ head => nomatch head
  refine ⟨c, [], chars, (lexeme_of_symbol lone ends).1, fun tail apart => ?_⟩
  rw [List.nil_append, (lexeme_of_symbol lone apart).2, chars]

/-- A written word is read off as itself. -/
theorem Word.IsWritten.readsAs {word : Word} (written : word.IsWritten) :
    ReadsAs word.rendered word := by
  obtain ⟨kind, text⟩ := word
  cases kind with
  | number => exact readsAs_number written
  | string => exact readsAs_string text
  | identifier => exact readsAs_name written.1 (if_neg written.2).symm
  | keyword =>
    have keyword : text ∈ keywords := written
    exact readsAs_name (isName_of_mem_keywords keyword) (if_pos keyword).symm
  | operator =>
    rcases written with ⟨pair, double, chars⟩ | ⟨c, lone, chars⟩
    · exact readsAs_pair double chars
    · have reads := readsAs_symbol (.inl lone) chars
      have kind : symbolKind c = .operator := if_neg (by simpa using lone.2.2)
      rwa [kind] at reads
  | punctuation =>
    obtain ⟨c, mark, chars⟩ := written
    have reads := readsAs_symbol (.inr mark) chars
    have kind : symbolKind c = .punctuation := if_pos (by simpa using mark)
    rwa [kind] at reads
  | comment => exact readsAs_comment written.1 written.2
  | newline =>
    obtain rfl : text = "\n" := written
    exact ⟨'\n', [], rfl, by decide, fun tail _ => rfl⟩
  | endOfFile => exact written.elim

/-! ### Sources of written words -/

/-- Behind a word that was read, the source goes on with a space or ends. -/
theorem Cursor.tokens_of_readsAs {chars tail : List Char} {word : Word}
    (reads : ReadsAs chars word) (apart : Apart tail) (position : Position) :
    ∃ token, token.word = word ∧
      (Cursor.mk (chars ++ tail) position).tokens =
        token :: (Cursor.mk tail (position.advance chars)).tokens := by
  obtain ⟨first, more, rfl, notGap, lexes⟩ := reads
  refine ⟨tokenAt position (lexeme first (more ++ tail)), ?_, ?_⟩
  · rw [lexes tail apart]
    simp [tokenAt, Token.word, String.ofList_toList]
  · rw [List.cons_append, tokens_of_cons notGap, lexes tail apart]
    rfl

theorem Cursor.words_tokens_intercalate {words : List Word}
    (written : ∀ word ∈ words, word.IsWritten) (position : Position) :
    (Cursor.mk ([' '].intercalate (words.map Word.rendered)) position).tokens.map Token.word =
      words ++ [⟨.endOfFile, ""⟩] := by
  induction words generalizing position with
  | nil =>
    rw [List.map_nil, List.intercalate_nil, tokens_nil]
    rfl
  | cons word words ih =>
    have reads := (written word List.mem_cons_self).readsAs
    replace ih := ih fun other member => written other (List.mem_cons_of_mem word member)
    cases words with
    | nil =>
      have ends : Apart [] := fun _ head => nomatch head
      obtain ⟨token, same, tokens⟩ := tokens_of_readsAs reads ends position
      rw [List.append_nil, tokens_nil] at tokens
      rw [List.map_singleton, List.intercalate_singleton, tokens, List.map_cons, same]
      rfl
    | cons second words =>
      rw [List.map_cons, List.intercalate_cons_of_ne_nil (by simp), List.append_assoc,
        List.singleton_append]
      have space : Apart (' ' :: [' '].intercalate ((second :: words).map Word.rendered)) :=
        fun _ head => (Option.some.inj head).symm
      obtain ⟨token, same, tokens⟩ := tokens_of_readsAs reads space position
      rw [tokens, tokens_of_space, List.map_cons, same, ih]
      rfl

/-- Reading undoes writing.  If each word can be written as a token of its kind, the words written
down with single spaces between them are read back, in order, and then the end of the source. -/
theorem tokenize_render {words : List Word} (written : ∀ word ∈ words, word.IsWritten) :
    (tokenize (render words)).map Token.word = words ++ [⟨.endOfFile, ""⟩] := by
  rw [tokenize, Cursor.ofSource, render, String.toList_ofList]
  exact Cursor.words_tokens_intercalate written .start

/-- A word of every kind, each close to one of another kind. -/
def motley : List Word :=
  [⟨.identifier, "$e5"⟩, ⟨.keyword, "loop"⟩, ⟨.number, ".5e-3"⟩, ⟨.number, "7."⟩,
   ⟨.string, "say \"\\\" /* \n"⟩, ⟨.operator, "/="⟩, ⟨.operator, "/"⟩, ⟨.operator, "."⟩,
   ⟨.punctuation, ";"⟩, ⟨.newline, "\n"⟩, ⟨.comment, "a \" * /*"⟩, ⟨.comment, ""⟩]

theorem tokenize_render_motley :
    (∀ word ∈ motley, word.IsWritten) ∧
      (tokenize (render motley)).map Token.word = motley ++ [⟨.endOfFile, ""⟩] := by
  have name : Word.IsWritten ⟨.identifier, "$e5"⟩ :=
    ⟨⟨'$', ['e', '5'], rfl, by decide, by simp⟩, by decide⟩
  have keyword : "loop" ∈ keywords := by decide
  have small : Numeral ".5e-3".toList :=
    ⟨['.', '5'], ['e', '-', '3'], rfl, .fraction (by decide) (by simp [AllDigits]),
      .present (.inl rfl) (.inr (.inr rfl)) (by decide) (by simp [AllDigits])⟩
  have pointed : Numeral "7.".toList :=
    ⟨['7', '.'], [], rfl, .pointed (List.cons_ne_nil '7' []) (by simp [AllDigits])
      (by simp [AllDigits]), .absent⟩
  have slash : IsLoneOperator '/' := ⟨by decide, by decide, by decide⟩
  have point : IsLoneOperator '.' := ⟨by decide, by decide, by decide⟩
  have remark : Text.trim "a \" * /*".toList = "a \" * /*".toList ∧
      ¬['*', '/'] <:+: "a \" * /*".toList := by decide +kernel
  have silence : Text.trim "".toList = "".toList ∧ ¬['*', '/'] <:+: "".toList := by decide
  have written : ∀ word ∈ motley, word.IsWritten := by
    simp only [motley, List.forall_mem_cons]
    exact ⟨name, keyword, small, pointed, trivial, .inl ⟨('/', '='), by decide, rfl⟩,
      .inr ⟨'/', slash, rfl⟩, .inr ⟨'.', point, rfl⟩, ⟨';', by decide, rfl⟩, rfl, remark, silence,
      fun _ member => nomatch member⟩
  exact ⟨written, tokenize_render written⟩

end EffectScript.Language
