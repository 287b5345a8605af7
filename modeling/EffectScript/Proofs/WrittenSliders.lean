import EffectScript.Proofs.SliderPattern

/-!
# Written slider declarations

A declaration is written from its numbers, the names of its values and its label, with blanks around
the line and around most of its parts.  However it is written, the same declaration is read back.
-/

namespace EffectScript

open EffectScript.Language

/-! ### Blanks -/

namespace Text

/-- Blanks on one line. -/
structure IsGap (text : List Char) : Prop where
  isBlank {c : Char} : c ∈ text → isBlank c = true
  whole : '\n' ∉ text

theorem IsGap.of_all {text : List Char}
    (all : (text.all fun c => Text.isBlank c && c != '\n') = true) : IsGap text where
  isBlank member := (Bool.and_eq_true_iff.1 (List.all_eq_true.1 all _ member)).1
  whole member := nomatch (Bool.and_eq_true_iff.1 (List.all_eq_true.1 all _ member)).2

theorem IsGap.nil : IsGap [] :=
  .of_all rfl

theorem IsGap.trim {text : List Char} (gap : IsGap text) : trim text = [] := by
  rw [Text.trim, List.dropWhile_eq_nil_iff.2 fun _ => gap.isBlank]
  rfl

theorem IsGap.not_mem {text : List Char} (gap : IsGap text) {c : Char}
    (visible : Text.isBlank c = false) : c ∉ text :=
  fun member => Bool.false_ne_true (visible.symm.trans (gap.isBlank member))

theorem dropEndWhile_append_of_pos {drops : Char → Bool} {blanks : List Char}
    (all : ∀ c ∈ blanks, drops c = true) (text : List Char) :
    dropEndWhile drops (text ++ blanks) = dropEndWhile drops text := by
  rw [dropEndWhile, List.reverse_append,
    List.dropWhile_append_of_pos fun c member => all c (List.mem_reverse.1 member), dropEndWhile]

theorem mem_of_mem_dropEndWhile {drops : Char → Bool} {c : Char} {text : List Char}
    (member : c ∈ dropEndWhile drops text) : c ∈ text :=
  List.mem_reverse.1 ((List.dropWhile_suffix drops).subset (List.mem_reverse.1 member))

/-- Blanks around a text are trimmed away. -/
theorem trim_append {before after : List Char} (allBefore : ∀ c ∈ before, isBlank c = true)
    (allAfter : ∀ c ∈ after, isBlank c = true) (text : List Char) :
    trim (before ++ text ++ after) = trim text := by
  rw [trim, List.append_assoc, List.dropWhile_append_of_pos allBefore, List.dropWhile_append]
  split
  · rename_i empty
    rw [List.isEmpty_iff] at empty
    rw [List.dropWhile_eq_nil_iff.2 allAfter, trim, empty]
  · rw [dropEndWhile_append_of_pos allAfter, trim]

theorem trim_dropEndWhile (text : List Char) : trim (dropEndWhile isBlank text) = trim text := by
  obtain ⟨blanks, whole, dropped, -⟩ := exists_dropEndWhile_append isBlank text
  have trimmed := trim_append (List.forall_mem_nil _) dropped (dropEndWhile isBlank text)
  rwa [List.nil_append, ← whole, eq_comm] at trimmed

theorem dropWhile_isBlank_eq_self {text : List Char} (none : ∀ c ∈ text, isBlank c = false) :
    text.dropWhile isBlank = text := by
  cases text with
  | nil => rfl
  | cons c text => exact List.dropWhile_cons_of_neg (by simp [none c])

theorem trim_eq_self {text : List Char} (none : ∀ c ∈ text, isBlank c = false) :
    trim text = text := by
  rw [trim, dropWhile_isBlank_eq_self none, dropEndWhile,
    dropWhile_isBlank_eq_self fun c member => none c (List.mem_reverse.1 member),
    List.reverse_reverse]

/-- A text on one line with blanks around it. -/
structure Padded where
  before : List Char
  text : List Char
  after : List Char
  gapBefore : IsGap before
  gapAfter : IsGap after
  whole : '\n' ∉ text

namespace Padded

variable (padded : Padded)

/-- The text with the blanks. -/
def written : List Char :=
  padded.before ++ padded.text ++ padded.after

theorem trim_written : trim padded.written = trim padded.text :=
  trim_append (fun _ => padded.gapBefore.isBlank) (fun _ => padded.gapAfter.isBlank) padded.text

theorem whole_written : '\n' ∉ padded.written := by
  simp [written, padded.gapBefore.whole, padded.gapAfter.whole, padded.whole]

/-- A visible character is not in the blanks. -/
theorem not_mem_written {c : Char} (visible : isBlank c = false) (absent : c ∉ padded.text) :
    c ∉ padded.written := by
  simp [written, padded.gapBefore.not_mem visible, padded.gapAfter.not_mem visible, absent]

theorem written_ne_nil (nonempty : padded.text ≠ []) : padded.written ≠ [] := by
  simp [written, nonempty]

end Padded

end Text

/-! ### Characters of numbers -/

namespace Number

/-- A character that a number can have. -/
def isNumberPart (c : Char) : Bool :=
  isLetter c || isDigit c || c == '.' || c == '+' || c == '-'

theorem isNumberPart_of_isDigit {c : Char} (digit : isDigit c = true) :
    isNumberPart c = true := by
  simp [isNumberPart, digit]

theorem isLetter_of_toLower {c : Char} (letter : isLetter c.toLower = true) :
    isLetter c = true := by
  unfold Char.toLower at letter
  split at letter
  · rename_i upper
    simp only [isLetter, Bool.or_eq_true, Bool.and_eq_true, decide_eq_true_eq]
    exact .inr upper
  · exact letter

/-- The characters of a text without its sign. -/
theorem isNumberPart_of_splitSign {text : List Char}
    (parts : ∀ c ∈ (splitSign text).2, isNumberPart c = true) :
    ∀ c ∈ text, isNumberPart c = true := by
  unfold splitSign at parts
  split at parts
  · exact List.forall_mem_cons.2 ⟨by decide, parts⟩
  · exact List.forall_mem_cons.2 ⟨by decide, parts⟩
  · exact parts

theorem isNumberPart_of_lowerCase {text : List Char} {name : String}
    (same : lowerCase text = name) (letters : name.toList.all isLetter = true) :
    ∀ c ∈ text, isNumberPart c = true := by
  intro c member
  rw [← same, lowerCase, String.toList_ofList, List.all_map, List.all_eq_true] at letters
  simp [isNumberPart, isLetter_of_toLower (letters c member)]

theorem isNumberPart_of_readExponent? {text : List Char} {exponent : Int}
    (read : readExponent? text = some exponent) : ∀ c ∈ text, isNumberPart c = true := by
  unfold readExponent? at read
  split at read
  · exact nofun
  · split at read
    · rename_i mark rest isMark
      dsimp only at read
      split at read
      · contradiction
      · rename_i digits
        simp only [Bool.or_eq_true, not_or, Bool.not_eq_true', Bool.not_eq_false,
          List.all_eq_true] at digits
        refine List.forall_mem_cons.2 ⟨?_, isNumberPart_of_splitSign fun c member =>
          isNumberPart_of_isDigit (digits.2 c member)⟩
        rw [Bool.or_eq_true, beq_iff_eq, beq_iff_eq] at isMark
        rcases isMark with rfl | rfl <;> decide
    · contradiction

theorem isNumberPart_of_readNumeral? {text : List Char} {numeral : Numeral}
    (read : readNumeral? text = some numeral) : ∀ c ∈ text, isNumberPart c = true := by
  have digits (rest : List Char) : ∀ c ∈ rest.takeWhile isDigit, isNumberPart c = true :=
    fun c member => isNumberPart_of_isDigit (List.mem_takeWhile_imp member)
  have parts {rest : List Char} (behind : ∀ c ∈ rest.dropWhile isDigit, isNumberPart c = true) :
      ∀ c ∈ rest, isNumberPart c = true := by
    rw [← List.takeWhile_append_dropWhile (p := isDigit) (l := rest)]
    exact List.forall_mem_append.2 ⟨digits rest, behind⟩
  refine parts ?_
  unfold readNumeral? at read
  dsimp only at read
  have exponentParts {rest : List Char} {noDigits : Bool} {build : Int → Numeral}
      (taken : (if noDigits = true then none else (readExponent? rest).map build) =
        some numeral) : ∀ c ∈ rest, isNumberPart c = true := by
    split at taken
    · contradiction
    · obtain ⟨exponent, readExponent, _⟩ := Option.map_eq_some_iff.1 taken
      exact isNumberPart_of_readExponent? readExponent
  -- Behind the digits comes the exponent, or a point, more digits and then the exponent.
  split at read
  · rename_i fraction behind
    rw [behind]
    exact List.forall_mem_cons.2 ⟨by decide, parts (exponentParts read)⟩
  · exact exponentParts read

theorem isNumberPart_of_readFloat? {text : List Char} {value : Float}
    (read : readFloat? text = some value) : ∀ c ∈ text, isNumberPart c = true := by
  refine isNumberPart_of_splitSign ?_
  unfold readFloat? at read
  dsimp only at read
  split at read
  · rename_i infinite
    rw [Bool.or_eq_true, beq_iff_eq, beq_iff_eq] at infinite
    rcases infinite with name | name <;> exact isNumberPart_of_lowerCase name (by decide)
  split at read
  · rename_i name
    exact isNumberPart_of_lowerCase (beq_iff_eq.1 name) (by decide)
  · obtain ⟨numeral, readNumeral, _⟩ := Option.map_eq_some_iff.1 read
    exact isNumberPart_of_readNumeral? readNumeral

theorem isBlank_of_isNumberPart {c : Char} (part : isNumberPart c = true) :
    Text.isBlank c = false := by
  simp only [isNumberPart, isLetter, isDigit, Bool.or_eq_true, Bool.and_eq_true,
    decide_eq_true_eq, beq_iff_eq, Char.le_def, UInt32.le_iff_toNat_le] at part
  have inRange : 43 ≤ c.toNat ∧ c.toNat ≤ 122 := by
    rcases part with ((((⟨low, high⟩ | ⟨low, high⟩) | ⟨low, high⟩) | rfl) | rfl) | rfl
    iterate 3
      exact ⟨Nat.le_trans (by decide) low, Nat.le_trans high (by decide)⟩
    all_goals decide
  simp only [Text.isBlank, Text.blankRanges, List.any_cons, List.any_nil, Bool.or_eq_false_iff,
    Bool.and_eq_false_iff, decide_eq_false_iff_not, and_true]
  omega

end Number

namespace Script

/-! ### Parts of a declaration -/

/-- A number as it is written. -/
structure WrittenNumber extends Text.Padded where
  value : Float
  readFloat?_text : Number.readFloat? text = some value

namespace WrittenNumber

/-- Every text that is read as a number can be written between any blanks. -/
def ofText {before text after : List Char} (gapBefore : Text.IsGap before)
    (gapAfter : Text.IsGap after) {value : Float}
    (read : Number.readFloat? text = some value) : WrittenNumber where
  before := before
  text := text
  after := after
  gapBefore := gapBefore
  gapAfter := gapAfter
  whole member := nomatch Number.isNumberPart_of_readFloat? read _ member
  value := value
  readFloat?_text := read

variable (number : WrittenNumber)

theorem not_mem_text {c : Char} (other : Number.isNumberPart c = false) : c ∉ number.text :=
  fun member => Bool.false_ne_true
    (other.symm.trans (Number.isNumberPart_of_readFloat? number.readFloat?_text c member))

theorem trim_text : Text.trim number.written = number.text := by
  rw [number.trim_written]
  exact Text.trim_eq_self fun c member => Number.isBlank_of_isNumberPart
    (Number.isNumberPart_of_readFloat? number.readFloat?_text c member)

theorem readFloat?_trim : Number.readFloat? (Text.trim number.written) = some number.value := by
  rw [number.trim_text, number.readFloat?_text]

theorem text_ne_nil : number.text ≠ [] := by
  intro empty
  have read := number.readFloat?_text
  rw [empty] at read
  exact nomatch read

theorem written_ne_nil : number.written ≠ [] :=
  number.toPadded.written_ne_nil number.text_ne_nil

/-- A visible character that numbers do not have is not in a written number. -/
theorem not_mem_written {c : Char} (visible : Text.isBlank c = false)
    (other : Number.isNumberPart c = false) : c ∉ number.written :=
  number.toPadded.not_mem_written visible (number.not_mem_text other)

/-- A written number is a field up to the first character that is neither blank nor of a number. -/
theorem splitField?_written {ends : Char → Bool} {stop : Char} (stops : ends stop = true)
    (others : ∀ c, ends c = true → Text.isBlank c = false ∧ Number.isNumberPart c = false)
    (rest : List Char) :
    splitField? ends (number.written ++ stop :: rest) = some (number.written, stop :: rest) := by
  refine splitField?_append number.written_ne_nil (fun c member => ?_) stops rest
  by_contra ended
  obtain ⟨visible, other⟩ := others c (Bool.not_eq_false _ ▸ ended)
  exact number.not_mem_written visible other member

end WrittenNumber

/-- The name of a value as it is written: not empty, and without commas and closing angle
brackets. -/
structure WrittenName extends Text.Padded where
  ne_nil : text ≠ []
  trim_text : Text.trim text = text
  noComma : ',' ∉ text
  noBracket : '>' ∉ text

/-- A step as it is written: a number, or blanks for the standard step. -/
inductive WrittenStep where
  | standard (gap : List Char) (isGap : Text.IsGap gap)
  | given (number : WrittenNumber)

namespace WrittenStep

def written : WrittenStep → List Char
  | standard gap _ => gap
  | given number => number.written

/-- The step that is meant. -/
def value : WrittenStep → Float
  | standard _ _ => standardStep
  | given number => number.value

theorem stepValue?_written (step : WrittenStep) : stepValue? step.written = some step.value := by
  cases step with
  | standard gap isGap =>
    rw [written, stepValue?, isGap.trim]
    rfl
  | given number =>
    have nonempty : ¬(Text.trim number.written).isEmpty = true := by
      rw [List.isEmpty_iff, number.trim_text]
      exact number.text_ne_nil
    rw [written, stepValue?, if_neg nonempty, number.readFloat?_trim, value]

theorem not_mem_written (step : WrittenStep) {c : Char} (visible : Text.isBlank c = false)
    (other : Number.isNumberPart c = false) : c ∉ step.written := by
  cases step with
  | standard gap isGap => exact isGap.not_mem visible
  | given number => exact number.not_mem_written visible other

theorem whole_written (step : WrittenStep) : '\n' ∉ step.written := by
  cases step with
  | standard gap isGap => exact isGap.whole
  | given number => exact number.whole_written

end WrittenStep

/-! ### Names of values -/

theorem splitCommas_ne_nil (text : List Char) : splitCommas text ≠ [] := by
  cases text with
  | nil => simp [splitCommas]
  | cons c text =>
    rw [splitCommas]
    split
    · simp
    · split <;> simp

theorem splitCommas_cons {c : Char} (other : c ≠ ',') (text : List Char) :
    splitCommas (c :: text) =
      (c :: (splitCommas text).headD []) :: (splitCommas text).tail := by
  rw [splitCommas, if_neg (by simpa using other)]
  cases found : splitCommas text with
  | nil => exact absurd found (splitCommas_ne_nil text)
  | cons piece more => rfl

theorem splitCommas_append {piece : List Char} (noComma : ',' ∉ piece) (rest : List Char) :
    splitCommas (piece ++ ',' :: rest) = piece :: splitCommas rest := by
  induction piece with
  | nil => rfl
  | cons c piece ih =>
    obtain ⟨other, noComma⟩ := List.ne_and_not_mem_of_not_mem_cons noComma
    rw [List.cons_append, splitCommas_cons other.symm, ih noComma]
    rfl

theorem splitCommas_of_not_mem {piece : List Char} (noComma : ',' ∉ piece) :
    splitCommas piece = [piece] := by
  induction piece with
  | nil => rfl
  | cons c piece ih =>
    obtain ⟨other, noComma⟩ := List.ne_and_not_mem_of_not_mem_cons noComma
    rw [splitCommas_cons other.symm, ih noComma]
    rfl

/-- The names of values as they are written, with commas between them. -/
def writtenNames (names : List WrittenName) : List Char :=
  [','].intercalate (names.map fun name => name.written)

theorem writtenNames_cons_cons (first second : WrittenName) (names : List WrittenName) :
    writtenNames (first :: second :: names) =
      first.written ++ ',' :: writtenNames (second :: names) := by
  simp [writtenNames, List.intercalate_cons_cons]

theorem splitCommas_writtenNames {first : WrittenName} {names : List WrittenName} :
    splitCommas (writtenNames (first :: names)) =
      (first :: names).map fun name => name.written := by
  have noComma (name : WrittenName) : ',' ∉ name.written :=
    name.not_mem_written (by decide) name.noComma
  induction names generalizing first with
  | nil =>
    rw [writtenNames, List.map_singleton, List.intercalate_singleton]
    exact splitCommas_of_not_mem (noComma first)
  | cons second names ih =>
    rw [writtenNames_cons_cons, splitCommas_append (noComma first), ih]
    rfl

theorem not_mem_writtenNames {c : Char} (other : c ≠ ',') {names : List WrittenName}
    (absent : ∀ name ∈ names, c ∉ name.written) : c ∉ writtenNames names := by
  induction names with
  | nil => exact List.not_mem_nil
  | cons first names ih =>
    obtain ⟨absentFirst, absentRest⟩ := List.forall_mem_cons.1 absent
    cases names with
    | nil =>
      rw [writtenNames, List.map_singleton, List.intercalate_singleton]
      exact absentFirst
    | cons second names =>
      rw [writtenNames_cons_cons, List.mem_append, List.mem_cons]
      rintro (inFirst | comma | inRest)
      · exact absentFirst inFirst
      · exact other comma
      · exact ih absentRest inRest

/-- The names are read back. -/
theorem names_of_written (names : List WrittenName) :
    ((splitCommas (writtenNames names)).map Text.trim).filter (!·.isEmpty) =
      names.map fun name => name.text := by
  have trimmed : (Text.trim ∘ fun name : WrittenName => name.written) = fun name => name.text := by
    funext name
    exact name.trim_written.trans name.trim_text
  cases names with
  | nil => rfl
  | cons first names =>
    rw [splitCommas_writtenNames, List.map_map, trimmed]
    refine List.filter_eq_self.2 fun text member => ?_
    obtain ⟨name, _, rfl⟩ := List.mem_map.1 member
    simp [name.ne_nil]

section

variable {step : List Char} (noBrace : '\x7b' ∉ step)

include noBrace

theorem splitValueNames_of_not_mem : splitValueNames step = (step, []) := by
  have goesOn := forall_bne_of_not_mem noBrace
  rw [splitValueNames, List.takeWhile_eq_self_iff.2 goesOn, List.dropWhile_eq_nil_iff.2 goesOn]

theorem splitValueNames_braces (list : List Char) :
    splitValueNames (step ++ '\x7b' :: (list ++ ['\x7d'])) =
      (step, (((splitCommas list).map Text.trim).filter (!·.isEmpty)).map String.ofList) := by
  have goesOn := forall_bne_of_not_mem noBrace
  have closed : dropClosingBrace (list ++ ['\x7d']) = list := by
    simp [dropClosingBrace]
  rw [splitValueNames, List.takeWhile_append_of_pos goesOn, List.dropWhile_append_of_pos goesOn,
    List.takeWhile_cons_of_neg (by decide), List.dropWhile_cons_of_neg (by decide)]
  simp only [closed, List.append_nil]

end

/-- What is written behind the greatest value: a comma, a step, and the names of the values in
braces, if they are named. -/
structure WrittenStepPart where
  step : WrittenStep
  names : Option (List WrittenName)

namespace WrittenStepPart

/-- The names in braces. -/
def braced : Option (List WrittenName) → List Char
  | none => []
  | some names => '\x7b' :: (writtenNames names ++ ['\x7d'])

/-- The step and the names. -/
def written (part : WrittenStepPart) : List Char :=
  part.step.written ++ braced part.names

/-- The names that are meant. -/
def valueNames (part : WrittenStepPart) : List String :=
  (part.names.getD []).map fun name => String.ofList name.text

theorem splitValueNames_written (part : WrittenStepPart) :
    splitValueNames part.written = (part.step.written, part.valueNames) := by
  have noBrace : '\x7b' ∉ part.step.written :=
    part.step.not_mem_written (by decide) (by decide)
  rw [written, valueNames]
  cases part.names with
  | none =>
    rw [braced, List.append_nil, splitValueNames_of_not_mem noBrace]
    rfl
  | some names =>
    rw [braced, splitValueNames_braces noBrace, names_of_written, List.map_map]
    rfl

theorem not_mem_written (part : WrittenStepPart) {c : Char} (noMark : c ∉ [',', '\x7b', '\x7d'])
    (inStep : c ∉ part.step.written) (inName : ∀ name : WrittenName, c ∉ name.written) :
    c ∉ part.written := by
  simp only [List.mem_cons, List.not_mem_nil, or_false, not_or] at noMark
  obtain ⟨noComma, noOpening, noClosing⟩ := noMark
  have inNames (names : List WrittenName) : c ∉ writtenNames names :=
    not_mem_writtenNames noComma fun name _ => inName name
  rw [written]
  cases part.names with
  | none => simp [braced, inStep]
  | some names => simp [braced, inStep, inNames, noOpening, noClosing]

theorem noBracket_written (part : WrittenStepPart) : '>' ∉ part.written :=
  part.not_mem_written (by decide) (part.step.not_mem_written (by decide) (by decide))
    fun name => name.not_mem_written (by decide) name.noBracket

theorem whole_written (part : WrittenStepPart) : '\n' ∉ part.written :=
  part.not_mem_written (by decide) part.step.whole_written fun name => name.whole_written

end WrittenStepPart

/-! ### Declarations -/

theorem toDigits_slider :
    ∀ index < sliderCount, Nat.toDigits 10 (index + 1) ≠ [] ∧
      (Nat.toDigits 10 (index + 1)).all Number.isDigit = true ∧
      Number.digitsValue (Nat.toDigits 10 (index + 1)) = index + 1 := by
  decide

/-- The line of a declaration as it is written. -/
structure WrittenSlider where
  /-- Blanks in front of the line. -/
  front : List Char
  /-- Blanks behind the line, with its end. -/
  back : List Char
  frontBlank : front.all Text.isBlank = true
  backBlank : back.all Text.isBlank = true
  index : Nat
  index_lt : index < sliderCount
  initial : WrittenNumber
  least : WrittenNumber
  greatest : WrittenNumber
  stepPart : Option WrittenStepPart
  label : Text.Padded
  trim_label : Text.trim label.text = label.text

namespace WrittenSlider

/-- The slider that is meant. -/
def slider (declared : WrittenSlider) : Slider where
  index := declared.index
  initial := declared.initial.value
  least := declared.least.value
  greatest := declared.greatest.value
  step := (declared.stepPart.map fun part => part.step.value).getD standardStep
  label := String.ofList declared.label.text
  valueNames := (declared.stepPart.map WrittenStepPart.valueNames).getD []

/-- The decimal digits of the number of the slider. -/
def digits (declared : WrittenSlider) : List Char :=
  Nat.toDigits 10 (declared.index + 1)

/-- The step and the names, with the comma in front of them. -/
def step (declared : WrittenSlider) : List Char :=
  match declared.stepPart with
  | none => []
  | some part => ',' :: part.written

/-- What stands behind the colon, in front of the closing bracket. -/
def fields (declared : WrittenSlider) : List Char :=
  declared.initial.written ++ '<' :: (declared.least.written ++ ',' ::
    (declared.greatest.written ++ declared.step))

/-- The line. -/
def line (declared : WrittenSlider) : List Char :=
  declared.front ++
    (sliderWord ++ declared.digits ++ ':' :: declared.fields ++ '>' :: declared.label.written) ++
    declared.back

variable (declared : WrittenSlider)

theorem isNumber_digits : IsNumber declared.digits := by
  obtain ⟨nonempty, digits, _⟩ := toDigits_slider declared.index declared.index_lt
  exact .of_all nonempty digits

theorem digitsValue_digits : Number.digitsValue declared.digits = declared.index + 1 :=
  (toDigits_slider declared.index declared.index_lt).2.2

/-- The texts of the trimmed line. -/
def texts : SliderTexts where
  number := declared.digits
  initial := declared.initial.written
  least := declared.least.written
  greatest := declared.greatest.written
  step := (declared.stepPart.map WrittenStepPart.written).getD []
  label := Text.dropEndWhile Text.isBlank declared.label.written

theorem trim_line :
    Text.trim declared.line = sliderWord ++ declared.digits ++ ':' ::
      (declared.fields ++ '>' :: declared.texts.label) := by
  rw [line, Text.trim_append (List.all_eq_true.1 declared.frontBlank)
    (List.all_eq_true.1 declared.backBlank)]
  have first : (sliderWord ++ declared.digits ++ ':' :: declared.fields ++ '>' ::
      declared.label.written).dropWhile Text.isBlank =
        sliderWord ++ declared.digits ++ ':' :: declared.fields ++ '>' :: declared.label.written :=
    List.dropWhile_cons_of_neg (by decide)
  rw [Text.trim, first, Text.dropEndWhile_append_cons (by decide), List.append_assoc,
    List.cons_append]
  rfl

theorem trim_texts_label : Text.trim declared.texts.label = declared.label.text := by
  rw [texts, Text.trim_dropEndWhile, declared.label.trim_written, declared.trim_label]

theorem reads_texts : declared.texts.Reads declared.slider where
  index_succ := declared.digitsValue_digits.symm
  initial := declared.initial.readFloat?_trim
  least := declared.least.readFloat?_trim
  greatest := declared.greatest.readFloat?_trim
  step := by
    simp only [texts, slider]
    cases declared.stepPart with
    | none => rfl
    | some part =>
      rw [Option.map_some, Option.getD_some, part.splitValueNames_written]
      exact part.step.stepValue?_written
  label := by rw [trim_texts_label, slider]
  valueNames := by
    simp only [texts, slider]
    cases declared.stepPart with
    | none => rfl
    | some part => simp only [Option.map_some, Option.getD_some, part.splitValueNames_written]

theorem splitField?_initial (number : WrittenNumber) (rest : List Char) :
    splitField? (· == '<') (number.written ++ '<' :: rest) =
      some (number.written, '<' :: rest) := by
  refine number.splitField?_written rfl (fun c ended => ?_) rest
  obtain rfl := beq_iff_eq.1 ended
  decide

theorem splitField?_bound (number : WrittenNumber) (stop : Char) (stops : endsBound stop = true)
    (rest : List Char) :
    splitField? endsBound (number.written ++ stop :: rest) =
      some (number.written, stop :: rest) := by
  refine number.splitField?_written stops (fun c ended => ?_) rest
  rw [endsBound, Bool.or_eq_true, beq_iff_eq, beq_iff_eq] at ended
  rcases ended with rfl | rfl <;> decide

theorem noBracket_step : '>' ∉ declared.texts.step := by
  simp only [texts]
  cases declared.stepPart with
  | none => exact List.not_mem_nil
  | some part => exact part.noBracket_written

/-- The greatest value ends with the comma in front of the step, or with the closing bracket. -/
theorem splitField?_greatest (label : List Char) :
    ∃ rest, splitField? endsBound
        (declared.greatest.written ++ (declared.step ++ '>' :: label)) =
          some (declared.greatest.written, rest) ∧
      dropComma rest = declared.texts.step ++ '>' :: label := by
  simp only [step, texts]
  cases declared.stepPart with
  | none => exact ⟨_, splitField?_bound declared.greatest _ rfl label, rfl⟩
  | some part => exact ⟨_, splitField?_bound declared.greatest _ rfl _, rfl⟩

theorem behindColon?_fields (label : List Char) :
    SliderTexts.behindColon? declared.digits (declared.fields ++ '>' :: label) =
      some { declared.texts with label } := by
  obtain ⟨rest, foundGreatest, behindComma⟩ := declared.splitField?_greatest label
  have goesOn := forall_bne_of_not_mem declared.noBracket_step
  have marked (mark : Char) (rest : List Char) : dropMark? mark (mark :: rest) = some rest :=
    dropMark?_eq_some_iff.2 rfl
  rw [SliderTexts.behindColon?, fields]
  simp only [List.append_assoc, List.cons_append, Option.bind_eq_bind, splitField?_initial,
    splitField?_bound _ ',' rfl, Option.bind_some, marked, foundGreatest, behindComma]
  rw [List.takeWhile_append_of_pos goesOn, List.dropWhile_append_of_pos goesOn,
    List.takeWhile_cons_of_neg (by decide), List.dropWhile_cons_of_neg (by decide), marked,
    List.append_nil]
  rfl

theorem ofLine?_line : SliderTexts.ofLine? (Text.trim declared.line) = some declared.texts := by
  rw [trim_line, SliderTexts.ofLine?_eq declared.isNumber_digits, behindColon?_fields]

theorem whole_fields : '\n' ∉ declared.fields ++ '>' :: declared.texts.label := by
  have inLabel : '\n' ∉ declared.texts.label :=
    fun member => declared.label.whole_written (Text.mem_of_mem_dropEndWhile member)
  have inStep : '\n' ∉ declared.step := by
    rw [step]
    cases declared.stepPart with
    | none => exact List.not_mem_nil
    | some part => simp [part.whole_written]
  simp [fields, declared.initial.whole_written, declared.least.whole_written,
    declared.greatest.whole_written, inStep, inLabel]

theorem ofLine_line (lineNumber : Nat) :
    Slider.ofLine lineNumber (Text.trim declared.line) = .ok declared.slider :=
  Slider.ofLine_eq_ok_iff.2
    ⟨declared.index_lt, declared.texts, declared.ofLine?_line, declared.reads_texts⟩

end WrittenSlider

/-- However a slider is declared, it is read back.  The pattern finds the texts between the
delimiters; the line declares the slider with its number, its four numbers, its label and the names
of its values in their order, where a step that is not written is the standard step; and reading the
header puts that slider in, leaves all else and goes on behind the line. -/
theorem reads_written (declared : WrittenSlider) (info : Info) (lineNumber : Nat)
    (rest : List (List Char)) :
    (∀ digitClass : DigitClass, preferred? (sliderParts digitClass) (Text.trim declared.line) =
      some [declared.digits, declared.initial.written, declared.least.written,
        declared.greatest.written, (declared.stepPart.map WrittenStepPart.written).getD [],
        Text.dropEndWhile Text.isBlank declared.label.written]) ∧
    Slider.ofLine lineNumber (Text.trim declared.line) = .ok declared.slider ∧
    (readLines info lineNumber (declared.line :: rest)).run.value =
      (readLines { info with sliders := insertSlider declared.slider info.sliders }
        (lineNumber + 1) rest).run.value.map fun read =>
          (read.1, lineFeedOf declared.line ++ read.2) := by
  have number := declared.isNumber_digits
  have read := declared.ofLine_line lineNumber
  have texts := declared.ofLine?_line
  have found : splitKey? (Text.trim declared.line) = some (sliderWord ++ declared.digits,
      declared.fields ++ '>' :: declared.texts.label) := by
    rw [declared.trim_line]
    exact splitKey?_slider number _
  refine ⟨fun digitClass => ?_, read, readLines_cons_of_slider number found read info rest⟩
  rw [declared.trim_line] at texts ⊢
  rw [preferred?_sliderParts digitClass number declared.whole_fields, texts]
  rfl

/-- A number without blanks around it. -/
def plainNumber (text : List Char) (reads : (Number.readFloat? text).isSome = true) :
    WrittenNumber :=
  .ofText .nil .nil (Option.some_get reads).symm

/-- A declaration with delimiters in a name and in the label, and without a step. -/
def crowdedSlider : WrittenSlider where
  front := ['\t', ' ']
  back := [' ', '\r', '\n']
  frontBlank := by decide
  backBlank := by decide
  index := 11
  index_lt := by decide
  initial := plainNumber "1e3".toList (by decide)
  least := plainNumber "-inf".toList (by decide)
  greatest := plainNumber "+.5".toList (by decide)
  stepPart := some {
    step := .standard [' '] (.of_all (by decide))
    names := some [
      { before := [], text := "a\x7b".toList, after := [' ']
        gapBefore := .nil, gapAfter := .of_all (by decide), whole := by decide
        ne_nil := by decide, trim_text := by decide, noComma := by decide
        noBracket := by decide }] }
  label := ⟨[], "x<y>,:\x7d".toList, [], .nil, .nil, by decide⟩
  trim_label := by decide

theorem reads_written_crowdedSlider :
    crowdedSlider.line =
      "\t slider12:1e3<-inf,+.5, \x7ba\x7b \x7d>x<y>,:\x7d \r\n".toList ∧
    Slider.ofLine 7 (Text.trim crowdedSlider.line) = .ok crowdedSlider.slider ∧
    (crowdedSlider.slider.index, crowdedSlider.slider.label, crowdedSlider.slider.valueNames) =
      (11, "x<y>,:\x7d", ["a\x7b"]) :=
  ⟨by decide +kernel, (reads_written crowdedSlider .empty 7 []).2.1, by decide +kernel⟩

end Script

end EffectScript
