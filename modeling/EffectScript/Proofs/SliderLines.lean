import EffectScript.Proofs.HeaderEnd

/-!
# Slider lines

A line whose key is the word `slider` and digits declares a slider.  This file says when such a line
is read and what is read from it: the digits decide the slider alone, and what stands behind the
colon decides everything else.
-/

namespace EffectScript.Script

open EffectScript.Language

/-! ### Keys -/

/-- The word in front of the number of a slider. -/
def sliderWord : List Char := ['s', 'l', 'i', 'd', 'e', 'r']

theorem dropSliderWord?_eq_some_iff {key digits : List Char} :
    dropSliderWord? key = some digits ↔ key = sliderWord ++ digits := by
  constructor
  · intro found
    unfold dropSliderWord? at found
    split at found
    · obtain rfl := Option.some.inj found
      rfl
    · contradiction
  · rintro rfl
    rfl

/-- Digits of a number, at least one. -/
structure IsNumber (digits : List Char) : Prop where
  ne_nil : digits ≠ []
  isDigit {c : Char} : c ∈ digits → Number.isDigit c = true

theorem IsNumber.of_all {digits : List Char} (ne_nil : digits ≠ [])
    (all : digits.all Number.isDigit = true) : IsNumber digits :=
  ⟨ne_nil, fun {c} => List.all_eq_true.1 all c⟩

theorem isSliderKey_iff {key : List Char} :
    isSliderKey key = true ↔ ∃ digits, key = sliderWord ++ digits ∧ IsNumber digits := by
  constructor
  · intro slides
    unfold isSliderKey at slides
    split at slides
    · rename_i digits found
      simp only [Bool.and_eq_true, Bool.not_eq_true', List.isEmpty_eq_false_iff] at slides
      exact ⟨digits, dropSliderWord?_eq_some_iff.1 found, .of_all slides.1 slides.2⟩
    · contradiction
  · rintro ⟨digits, rfl, number⟩
    rw [isSliderKey, dropSliderWord?_eq_some_iff.2 rfl]
    simpa using ⟨number.ne_nil, fun _ => number.isDigit⟩

/-- A line with a key is the key, a colon and the value. -/
theorem eq_of_splitKey? {line key value : List Char} (found : splitKey? line = some (key, value)) :
    line = key ++ ':' :: value := by
  unfold splitKey? at found
  dsimp only at found
  split at found
  · rename_i rest _ behind
    split at found
    · contradiction
    · obtain ⟨rfl, rfl⟩ := Prod.mk.inj (Option.some.inj found)
      rw [← behind, List.takeWhile_append_dropWhile]
  · contradiction

theorem isKeyPart_of_isDigit {c : Char} (digit : Number.isDigit c = true) : isKeyPart c = true := by
  simp [isKeyPart, digit]

/-- A slider key in front of a colon is the key of the line. -/
theorem splitKey?_slider {digits : List Char} (number : IsNumber digits) (value : List Char) :
    splitKey? (sliderWord ++ digits ++ ':' :: value) = some (sliderWord ++ digits, value) := by
  have letters : sliderWord.all isKeyPart = true := by decide
  have parts : ∀ c ∈ sliderWord ++ digits, isKeyPart c = true := by
    intro c member
    rcases List.mem_append.1 member with letter | digit
    · exact List.all_eq_true.1 letters c letter
    · exact isKeyPart_of_isDigit (number.isDigit digit)
  have colon : ¬isKeyPart ':' = true := by decide
  rw [splitKey?, List.takeWhile_append_of_pos parts, List.dropWhile_append_of_pos parts,
    List.takeWhile_cons_of_neg colon, List.dropWhile_cons_of_neg colon, List.append_nil]
  rfl

/-! ### The texts of a declaration -/

/-- Take the texts of a declaration behind the colon. -/
def SliderTexts.behindColon? (number rest : List Char) : Option SliderTexts := do
  let (initial, rest) ← splitField? (· == '<') rest
  let rest ← dropMark? '<' rest
  let (least, rest) ← splitField? endsBound rest
  let rest ← dropMark? ',' rest
  let (greatest, rest) ← splitField? endsBound rest
  let rest := dropComma rest
  let step := rest.takeWhile (· != '>')
  let label ← dropMark? '>' (rest.dropWhile (· != '>'))
  return ⟨number, initial, least, greatest, step, label⟩

theorem forall_bne_of_not_mem {mark : Char} {text : List Char} (absent : mark ∉ text) :
    ∀ c ∈ text, (c != mark) = true := by
  intro c member
  rw [bne_iff_ne]
  rintro rfl
  exact absent member

/-- A field in front of the character that ends it. -/
theorem splitField?_append {ends : Char → Bool} {field : List Char} (nonempty : field ≠ [])
    (goesOn : ∀ c ∈ field, ends c = false) {stop : Char} (stops : ends stop = true)
    (rest : List Char) : splitField? ends (field ++ stop :: rest) = some (field, stop :: rest) := by
  have parts : ∀ c ∈ field, (!ends c) = true := fun c member => by rw [goesOn c member]; rfl
  rw [splitField?, List.takeWhile_append_of_pos parts, List.dropWhile_append_of_pos parts]
  simp [stops, nonempty]

/-- The digits are taken as they are, and all else behind the colon. -/
theorem SliderTexts.ofLine?_eq {digits : List Char} (number : IsNumber digits)
    (rest : List Char) :
    SliderTexts.ofLine? (sliderWord ++ digits ++ ':' :: rest) =
      SliderTexts.behindColon? digits rest := by
  have field : splitField? (fun c => !Number.isDigit c) (digits ++ ':' :: rest) =
      some (digits, ':' :: rest) :=
    splitField?_append number.ne_nil (fun c member => by rw [number.isDigit member]; rfl)
      (by decide) rest
  rw [List.append_assoc, SliderTexts.ofLine?, dropSliderWord?_eq_some_iff.2 rfl]
  simp only [Option.bind_eq_bind, Option.bind_some, field]
  rfl

theorem SliderTexts.behindColon?_eq_map (number other rest : List Char) :
    SliderTexts.behindColon? number rest =
      (SliderTexts.behindColon? other rest).map ({ · with number }) := by
  simp only [SliderTexts.behindColon?, Option.bind_eq_bind, Option.map_bind, Function.comp_def]
  rfl

theorem SliderTexts.number_of_behindColon? {number rest : List Char} {texts : SliderTexts}
    (found : SliderTexts.behindColon? number rest = some texts) : texts.number = number := by
  rw [SliderTexts.behindColon?_eq_map number [], Option.map_eq_some_iff] at found
  obtain ⟨_, _, rfl⟩ := found
  rfl

/-! ### Reading the texts -/

/-- The value of a step text: that of its number, or the standard step if it is blank. -/
def stepValue? (text : List Char) : Option Float :=
  if (Text.trim text).isEmpty then some standardStep else Number.readFloat? (Text.trim text)

/-- A sequence succeeds if both parts do. -/
theorem bind_eq_ok_iff {ε α β : Type} {first : Except ε α} {next : α → Except ε β} {result : β} :
    first >>= next = .ok result ↔ ∃ value, first = .ok value ∧ next value = .ok result := by
  cases first with
  | error cause => exact iff_of_false nofun (by rintro ⟨_, none, _⟩; contradiction)
  | ok value => exact ⟨fun both => ⟨value, rfl, both⟩, by rintro ⟨_, ⟨⟩, rest⟩; exact rest⟩

theorem readField_eq_ok_iff {lineNumber : Nat} {field : SliderField} {text : List Char}
    {value : Float} :
    readField lineNumber field text = .ok value ↔
      Number.readFloat? (Text.trim text) = some value := by
  rw [readField]
  cases Number.readFloat? (Text.trim text) <;> simp

theorem readStep_eq_ok_iff {lineNumber : Nat} {text : List Char} {value : Float} :
    readStep lineNumber text = .ok value ↔ stepValue? text = some value := by
  rw [readStep, stepValue?]
  split
  · simp
  · exact readField_eq_ok_iff

/-- What a slider is by the texts of its declaration. -/
structure SliderTexts.Reads (texts : SliderTexts) (slider : Slider) : Prop where
  index_succ : slider.index + 1 = Number.digitsValue texts.number
  initial : Number.readFloat? (Text.trim texts.initial) = some slider.initial
  least : Number.readFloat? (Text.trim texts.least) = some slider.least
  greatest : Number.readFloat? (Text.trim texts.greatest) = some slider.greatest
  step : stepValue? (splitValueNames texts.step).1 = some slider.step
  label : slider.label = String.ofList (Text.trim texts.label)
  valueNames : slider.valueNames = (splitValueNames texts.step).2

/-- There are fewer sliders than a number can count. -/
theorem sliderCount_le_largestNumber : sliderCount ≤ largestNumber := by
  decide

/-- A line is read as a slider exactly if its texts are, and there is a slider with the number. -/
theorem Slider.ofLine_eq_ok_iff {lineNumber : Nat} {line : List Char} {slider : Slider} :
    Slider.ofLine lineNumber line = .ok slider ↔
      slider.index < sliderCount ∧
        ∃ texts, SliderTexts.ofLine? line = some texts ∧ texts.Reads slider := by
  have small := sliderCount_le_largestNumber
  rw [Slider.ofLine]
  cases found : SliderTexts.ofLine? line with
  | none => simp
  | some texts =>
    simp only [Option.some.injEq, exists_eq_left']
    split
    · rename_i beyond
      refine iff_of_false nofun fun ⟨inRange, reads⟩ => ?_
      have number := reads.index_succ
      omega
    split
    · rename_i beyond
      refine iff_of_false nofun fun ⟨inRange, reads⟩ => ?_
      have number := reads.index_succ
      simp only [Bool.or_eq_true, decide_eq_true_eq] at beyond
      omega
    · rename_i inRange
      simp only [Bool.or_eq_true, decide_eq_true_eq, not_or, Nat.not_lt] at inRange
      simp only [bind_eq_ok_iff, readStep_eq_ok_iff, readField_eq_ok_iff]
      constructor
      · rintro ⟨step, readsStep, initial, readsInitial, least, readsLeast, greatest, readsGreatest,
          made⟩
        obtain rfl := Except.ok.inj made
        exact ⟨by dsimp only; omega, by dsimp only; omega, readsInitial, readsLeast, readsGreatest,
          readsStep, rfl, rfl⟩
      · rintro ⟨_, reads⟩
        have number := reads.index_succ
        refine ⟨_, reads.step, _, reads.initial, _, reads.least, _, reads.greatest, ?_⟩
        rw [← number, Nat.add_sub_cancel, ← reads.label, ← reads.valueNames]
        rfl

/-- A declaration whose number belongs to no slider is refused for its number, whatever stands
behind the colon. -/
theorem Slider.ofLine_of_beyond (lineNumber : Nat) {line : List Char} {texts : SliderTexts}
    (found : SliderTexts.ofLine? line = some texts)
    (beyond : ¬∃ index < sliderCount, index + 1 = Number.digitsValue texts.number) :
    Slider.ofLine lineNumber line = .error
      (if largestNumber < Number.digitsValue texts.number then
        .invalidSlider lineNumber (String.ofList line)
      else .sliderOutOfRange lineNumber (Number.digitsValue texts.number)) := by
  have outside : Number.digitsValue texts.number < 1 ∨
      sliderCount < Number.digitsValue texts.number := by
    by_contra inside
    exact beyond ⟨Number.digitsValue texts.number - 1, by omega, by omega⟩
  rw [Slider.ofLine, found]
  dsimp only
  split
  · rfl
  · rw [if_pos (by simpa using outside)]

/-- What stands behind the colon declares a slider: all texts are there, and those of numbers can be
read. -/
def WellFormed (rest : List Char) : Prop :=
  ∃ texts, SliderTexts.behindColon? [] rest = some texts ∧
    (Number.readFloat? (Text.trim texts.initial)).isSome = true ∧
    (Number.readFloat? (Text.trim texts.least)).isSome = true ∧
    (Number.readFloat? (Text.trim texts.greatest)).isSome = true ∧
    (stepValue? (splitValueNames texts.step).1).isSome = true

/-- A line with a slider key declares the slider with its number, if there is one, and if what
stands behind the colon is well-formed. -/
theorem exists_ofLine_iff {digits : List Char} (number : IsNumber digits) (lineNumber : Nat)
    (rest : List Char) (index : Nat) :
    (∃ slider, Slider.ofLine lineNumber (sliderWord ++ digits ++ ':' :: rest) = .ok slider ∧
      slider.index = index) ↔
    WellFormed rest ∧ Number.digitsValue digits = index + 1 ∧ index < sliderCount := by
  simp only [Slider.ofLine_eq_ok_iff, SliderTexts.ofLine?_eq number,
    SliderTexts.behindColon?_eq_map digits [], Option.map_eq_some_iff, WellFormed]
  constructor
  · rintro ⟨slider, ⟨inRange, _, ⟨texts, found, rfl⟩, reads⟩, rfl⟩
    refine ⟨⟨texts, found, ?_, ?_, ?_, ?_⟩, reads.index_succ.symm, inRange⟩
    · exact Option.isSome_of_mem reads.initial
    · exact Option.isSome_of_mem reads.least
    · exact Option.isSome_of_mem reads.greatest
    · exact Option.isSome_of_mem reads.step
  · rintro ⟨⟨texts, found, isInitial, isLeast, isGreatest, isStep⟩, counted, inRange⟩
    obtain ⟨initial, readsInitial⟩ := Option.isSome_iff_exists.1 isInitial
    obtain ⟨least, readsLeast⟩ := Option.isSome_iff_exists.1 isLeast
    obtain ⟨greatest, readsGreatest⟩ := Option.isSome_iff_exists.1 isGreatest
    obtain ⟨step, readsStep⟩ := Option.isSome_iff_exists.1 isStep
    exact ⟨⟨index, initial, least, greatest, step, String.ofList (Text.trim texts.label),
        (splitValueNames texts.step).2⟩,
      ⟨inRange, _, ⟨texts, found, rfl⟩, counted.symm, readsInitial, readsLeast, readsGreatest,
        readsStep, rfl, rfl⟩, rfl⟩

/-! ### Taking the line -/

section

variable {digits : List Char} (number : IsNumber digits)

include number

theorem Info.withPin_slider (info : Info) (value : List Char) :
    info.withPin (sliderWord ++ digits) value = info := by
  have slides := isSliderKey_iff.2 ⟨digits, rfl, number⟩
  unfold withPin
  split
  iterate 2
    rename_i same
    exact absurd (isSliderKey_of_ofList_eq slides same) (by decide)
  rfl

/-- A header line with a slider key puts its slider in and leaves all else. -/
theorem readLines_cons_of_slider {line value : List Char} {lineNumber : Nat} {slider : Slider}
    (found : splitKey? (Text.trim line) = some (sliderWord ++ digits, value))
    (read : Slider.ofLine lineNumber (Text.trim line) = .ok slider) (info : Info)
    (rest : List (List Char)) :
    (readLines info lineNumber (line :: rest)).run.value =
      (readLines { info with sliders := insertSlider slider info.sliders } (lineNumber + 1)
        rest).run.value.map fun result => (result.1, lineFeedOf line ++ result.2) := by
  have inside : ¬((Text.trim line).head? == some '@') = true := by
    rw [eq_of_splitKey? found, List.append_assoc]
    exact Bool.false_ne_true
  rw [readLines]
  dsimp only
  rw [if_neg inside, found]
  dsimp only
  rw [value_run_bind, info.value_withLine_of_slider lineNumber _
    (isSliderKey_iff.2 ⟨digits, rfl, number⟩), read]
  refine (value_run_behind _ (·.withPin (sliderWord ++ digits) value) (lineFeedOf line)).trans ?_
  simp only [Info.withPin_slider number]

end

end EffectScript.Script
